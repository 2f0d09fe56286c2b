import Fipwave.ByteWords
import Fipwave.ThrowingMethod

/-!
# Transfer of an image in compressed bands

The sender cuts a raster into bands of rows, compresses each band on its own
and sends one datagram for each. The receiver keeps the bands of one transfer
by their first row and reports the image complete when their row counts add up
to its height.
-/

namespace Fipwave.ImageTransfer

open ByteWords ThrowingMethod

/-- Largest width. -/
def imageMaxWidth : ℕ := 96
/-- Largest height. -/
def imageMaxHeight : ℕ := 96
/-- Largest raster. -/
def imageMaxBytes : ℕ := imageMaxWidth * imageMaxHeight * 4
/-- Largest compressed band. -/
def imageBandMaxBytes : ℕ := 1200
/-- Rows a band has when they fit. -/
def imageBandTargetRows : ℕ := 6
/-- Bytes of the header. -/
def headerBytes : ℕ := 32
/-- The magic of the header. -/
def imageMagic : Bytes := [0x46, 0x49, 0x4d, 0x47]
/-- Encoding of a raw deflate stream. -/
def encodingDeflateRaw : ℕ := 2

/-- Role of a machine. -/
inductive ImageRole where
  | a | b
  deriving DecidableEq, Repr

/-- A received band. -/
structure ImageTransferBand where
  /-- First row. -/
  y : ℕ
  /-- Number of rows. -/
  rows : ℕ
  /-- Pixels; the source keeps them as Base64 text. -/
  rgba : Bytes
  deriving DecidableEq, Repr

/-- What the status shows. -/
structure ImageTransferSnapshot where
  /-- Identifier of the transfer; the source keeps it as hexadecimal text. -/
  transferId : Option Bytes
  /-- Width of the image. -/
  width : ℕ
  /-- Height of the image. -/
  height : ℕ
  /-- Rows of all bands. -/
  receivedRows : ℕ
  /-- The image is complete. -/
  complete : Bool
  /-- Number of changes. -/
  revision : ℕ
  /-- Bands by their first row. -/
  bands : List ImageTransferBand
  deriving DecidableEq, Repr

/-- One band of a transfer. -/
structure DecodedBand where
  /-- Identifier of the transfer. -/
  transferId : Bytes
  /-- Width of the image. -/
  width : ℕ
  /-- Height of the image. -/
  height : ℕ
  /-- First row. -/
  y : ℕ
  /-- Number of rows. -/
  rows : ℕ
  /-- Pixels. -/
  rgba : Bytes
  deriving DecidableEq, Repr

/-- A number is within its bounds. -/
def integer (value minimum maximum : ℕ) (code : String) : Except String Unit :=
  if value < minimum ∨ value > maximum then .error code else .ok ()

/-- Fail when a condition holds. -/
def failIf (condition : Bool) (code : String) : Except String Unit :=
  if condition then .error code else .ok ()

/-- A raster has the size of its image. -/
def validateRaster (width height : ℕ) (rgba : Bytes) : Except String Unit := do
  integer width 1 imageMaxWidth "image_width_invalid"
  integer height 1 imageMaxHeight "image_height_invalid"
  failIf (rgba.length ≠ width * height * 4 ∨ rgba.length > imageMaxBytes) "image_raster_invalid"

/-- An integer passes exactly when it lies within its bounds. -/
theorem integer_ok_iff {value minimum maximum : ℕ} {code : String} :
    integer value minimum maximum code = .ok () ↔ minimum ≤ value ∧ value ≤ maximum := by
  unfold integer
  by_cases h : value < minimum ∨ value > maximum
  · rw [if_pos h]
    simp only [reduceCtorEq, false_iff]
    omega
  · rw [if_neg h]
    simp only [true_iff]
    omega

/-- A guard passes exactly when its condition is false. -/
theorem failIf_ok_iff {condition : Bool} {code : String} :
    failIf condition code = .ok () ↔ condition = false := by
  cases condition <;> simp [failIf]

/-- The place of a band in its image. -/
structure DecodedBand.Valid (band : DecodedBand) : Prop where
  /-- A width within bounds. -/
  width : 1 ≤ band.width ∧ band.width ≤ imageMaxWidth
  /-- A height within bounds. -/
  height : 1 ≤ band.height ∧ band.height ≤ imageMaxHeight
  /-- Its first row is a row of the image. -/
  y : band.y ≤ band.height - 1
  /-- Its last row is one, too. -/
  rows : 1 ≤ band.rows ∧ band.rows ≤ band.height - band.y
  /-- It has all its pixels. -/
  rgba : band.rgba.length = band.width * band.rows * 4

section Compression

variable (deflateRaw : Bytes → Bytes) (inflateRaw : Bytes → ℕ → Option Bytes)

/-- Header and payload as they are written. -/
def frameOf (input : DecodedBand) (payload : Bytes) : Bytes :=
  imageMagic ++ [1, lowByte encodingDeflateRaw, 0, 0] ++ input.transferId ++
    writeWord 2 input.width ++ writeWord 2 input.height ++ writeWord 2 input.y ++
    writeWord 2 input.rows ++ writeWord 4 payload.length ++ [0, 0, 0, 0] ++ payload

/-- Encode a band. -/
def encodeImageBand (input : DecodedBand) : Except String Bytes := do
  integer input.width 1 imageMaxWidth "image_width_invalid"
  integer input.height 1 imageMaxHeight "image_height_invalid"
  failIf (input.transferId.length ≠ 8) "image_transfer_id_invalid"
  integer input.y 0 (input.height - 1) "image_band_y_invalid"
  integer input.rows 1 (input.height - input.y) "image_band_rows_invalid"
  failIf (input.rgba.length ≠ input.width * input.rows * 4 ∨ input.rgba.length > imageMaxBytes)
    "image_band_payload_invalid"
  let payload := deflateRaw input.rgba
  failIf (payload.length < 1 ∨ payload.length > imageBandMaxBytes) "image_band_compressed_oversize"
  return frameOf input payload

/-- Decode a band. -/
def decodeImageBand (frame : Bytes) : Except String DecodedBand := do
  failIf (frame.length ≤ headerBytes ∨ frame.length > headerBytes + imageBandMaxBytes)
    "image_frame_size_invalid"
  failIf (sliceAt frame 0 4 ≠ imageMagic ∨ wordAt frame 4 1 ≠ 1 ∨
    wordAt frame 5 1 ≠ encodingDeflateRaw ∨ wordAt frame 6 2 ≠ 0 ∨ wordAt frame 28 4 ≠ 0)
    "image_frame_header_invalid"
  let width := wordAt frame 16 2
  let height := wordAt frame 18 2
  let y := wordAt frame 20 2
  let rows := wordAt frame 22 2
  let payload := frame.drop headerBytes
  failIf (wordAt frame 24 4 ≠ payload.length) "image_frame_length_invalid"
  integer width 1 imageMaxWidth "image_width_invalid"
  integer height 1 imageMaxHeight "image_height_invalid"
  integer y 0 (height - 1) "image_band_y_invalid"
  integer rows 1 (height - y) "image_band_rows_invalid"
  let expectedBytes := width * rows * 4
  match inflateRaw payload expectedBytes with
  | none => .error "image_band_payload_invalid"
  | some rgba =>
    failIf (rgba.length ≠ expectedBytes) "image_band_payload_invalid"
    return { transferId := sliceAt frame 8 8, width, height, y, rows, rgba }

/-- What a datagram that is decoded satisfies. -/
theorem decodeImageBand_ok {frame : Bytes} {band : DecodedBand}
    (h : decodeImageBand inflateRaw frame = .ok band) : band.Valid := by
  unfold decodeImageBand at h
  simp only [bind_unit_ok_iff, integer_ok_iff] at h
  obtain ⟨-, -, -, hwidth, hheight, hy, hrows, h⟩ := h
  split at h
  · cases h
  · next rgba hinflate =>
    simp only [bind_unit_ok_iff, failIf_ok_iff, decide_eq_false_iff_not, not_not] at h
    obtain ⟨hlength, hband⟩ := h
    cases hband
    exact ⟨hwidth, hheight, hy.2, hrows, hlength⟩

/-- The status before anything was sent or received. -/
def emptySnapshot : ImageTransferSnapshot := ⟨none, 0, 0, 0, false, 0, []⟩

/-- What a transfer is created with. -/
structure ImageTransferOptions where
  /-- Role of this machine. -/
  role : ImageRole
  /-- Address of the other machine. -/
  peerIpv6 : String
  deriving DecidableEq, Repr

/-- State of a transfer. -/
structure TransferState where
  /-- Its status. -/
  snapshot : ImageTransferSnapshot
  /-- Received bands, in the order in which their first rows came first. -/
  received : List ImageTransferBand
  /-- It was closed. -/
  closed : Bool
  deriving DecidableEq, Repr

/-- A transfer that was created. -/
def createImageTransfer : TransferState := ⟨emptySnapshot, [], false⟩

/-- Keep a band under its first row. -/
def setBand (received : List ImageTransferBand) (band : ImageTransferBand) :
    List ImageTransferBand :=
  if received.any (fun other => other.y = band.y) then
    received.map (fun other => if other.y = band.y then band else other)
  else received ++ [band]

/-- Forget the bands of another transfer. -/
def startTransfer (transfer : TransferState) (band : DecodedBand) : TransferState :=
  if transfer.snapshot.transferId ≠ some band.transferId ∨
      transfer.snapshot.width ≠ band.width ∨ transfer.snapshot.height ≠ band.height then
    { transfer with
      received := []
      snapshot := ⟨some band.transferId, band.width, band.height, 0, false,
        transfer.snapshot.revision + 1, []⟩ }
  else transfer

/-- Keep a band and count the rows. -/
def storeBand (transfer : TransferState) (band : DecodedBand) : TransferState :=
  let entry : ImageTransferBand := ⟨band.y, band.rows, band.rgba⟩
  if transfer.received.find? (fun other => other.y = band.y) = some entry then transfer
  else
    let received := setBand transfer.received entry
    let bands := received.insertionSort (fun left right => left.y ≤ right.y)
    let receivedRows := (bands.map ImageTransferBand.rows).sum
    { transfer with
      received
      snapshot := { transfer.snapshot with
        receivedRows
        complete := receivedRows = band.height
        revision := transfer.snapshot.revision + 1
        bands } }

/-- A datagram arrives. -/
def accept (options : ImageTransferOptions) (transfer : TransferState) (frame : Bytes)
    (address : String) : TransferState :=
  if options.role ≠ .b ∨ address ≠ options.peerIpv6 then transfer
  else match decodeImageBand inflateRaw frame with
    | .error _ => transfer
    | .ok band => storeBand (startTransfer transfer band) band

/-- The bytes between two positions. -/
def subarray (bytes : Bytes) (start finish : ℕ) : Bytes := (bytes.take finish).drop start

/-- What the sender knows of a raster. -/
structure Raster where
  /-- Identifier of the transfer. -/
  transferId : Bytes
  /-- Width of the image. -/
  width : ℕ
  /-- Height of the image. -/
  height : ℕ
  /-- Pixels. -/
  rgba : Bytes
  deriving DecidableEq, Repr

/-- The band of a raster from a row on. -/
def Raster.band (raster : Raster) (y rows : ℕ) : DecodedBand :=
  { transferId := raster.transferId, width := raster.width, height := raster.height, y, rows
    rgba := subarray raster.rgba (y * raster.width * 4) ((y + rows) * raster.width * 4) }

/-- Encode a band, with fewer rows as long as it is too large. -/
def nextBand (raster : Raster) (y : ℕ) : ℕ → Except String (ℕ × Bytes)
  | 0 => .error "image_band_payload_invalid"
  | rows + 1 =>
    match encodeImageBand deflateRaw (raster.band y (rows + 1)) with
    | .ok frame => .ok (rows + 1, frame)
    | .error message =>
      if message ≠ "image_band_compressed_oversize" ∨ rows + 1 = 1 then .error message
      else nextBand raster y rows

/-- A band that is sent has rows. -/
theorem nextBand_pos {raster : Raster} {y limit rows : ℕ} {frame : Bytes}
    (h : nextBand deflateRaw raster y limit = .ok (rows, frame)) : 0 < rows := by
  induction limit with
  | zero => cases h
  | succ limit ih =>
    unfold nextBand at h
    split at h
    · cases h
      omega
    · split at h
      · cases h
      · exact ih h

/-- Send the bands from a row on: the datagrams that were sent, and their number when none
failed. -/
def sendBands (sendDatagram : Bytes → Except String Unit) (raster : Raster) (y : ℕ) :
    List Bytes × Except String ℕ :=
  if y < raster.height then
    match _hband : nextBand deflateRaw raster y (min imageBandTargetRows (raster.height - y)) with
    | .error message => ([], .error message)
    | .ok (rows, frame) =>
      match sendDatagram frame with
      | .error message => ([], .error message)
      | .ok () =>
        let rest := sendBands sendDatagram raster (y + rows)
        (frame :: rest.1, rest.2.map (· + 1))
  else ([], .ok 0)
termination_by raster.height - y
decreasing_by
  have hpos := nextBand_pos deflateRaw _hband
  omega

/-- What sending a raster leaves behind. -/
structure SendResult where
  /-- The transfer afterwards. -/
  transfer : TransferState
  /-- Datagrams that were sent. -/
  datagrams : List Bytes
  /-- Number of bands, when sending did not fail. -/
  bands : Except String ℕ

/-- The status while a raster is sent. -/
def sendingSnapshot (snapshot : ImageTransferSnapshot) (raster : Raster) : ImageTransferSnapshot :=
  ⟨some raster.transferId, raster.width, raster.height, 0, false, snapshot.revision + 1, []⟩

/-- Send a raster. The identifier is eight random bytes. -/
def send (sendDatagram : Bytes → Except String Unit) (options : ImageTransferOptions)
    (transfer : TransferState) (raster : Raster) : SendResult :=
  if transfer.closed ∨ options.role ≠ .a then
    ⟨transfer, [], .error "image_send_forbidden"⟩
  else match validateRaster raster.width raster.height raster.rgba with
    | .error message => ⟨transfer, [], .error message⟩
    | .ok () =>
      let snapshot := sendingSnapshot transfer.snapshot raster
      let sent := sendBands deflateRaw sendDatagram raster 0
      match sent.2 with
      | .error message => ⟨{ transfer with snapshot }, sent.1, .error message⟩
      | .ok bands =>
        ⟨{ transfer with snapshot := { snapshot with
            receivedRows := raster.height
            complete := true
            revision := snapshot.revision + 1 } }, sent.1, .ok bands⟩

end Compression

end Fipwave.ImageTransfer
