import Fipwave.ImageCoverage

/-!
# A raster from the sender to the receiver

With a lossless compression that keeps single rows small, a raster is sent in
bands that follow each other, in datagrams of at most 1232 bytes. A receiver
that gets these datagrams, in any order and with repetitions, shows the image
complete, with the pixels of the raster.
-/

namespace Fipwave.ImageDelivery

open ByteWords ThrowingMethod ImageTransfer SpanTiling TransitionRun ImageCoverage

section Frames

variable {band : DecodedBand}

theorem frameOf_length (payload : Bytes) (hid : band.transferId.length = 8) :
    (frameOf band payload).length = headerBytes + payload.length := by
  simp only [frameOf, imageMagic, headerBytes, List.length_append, List.length_cons,
    List.length_nil, writeWord_length, hid]

/-- The fields of a frame at their offsets. -/
theorem frameOf_fields (payload : Bytes) (hid : band.transferId.length = 8) :
    sliceAt (frameOf band payload) 0 4 = imageMagic ∧
    sliceAt (frameOf band payload) 4 1 = [1] ∧
    sliceAt (frameOf band payload) 5 1 = [2] ∧
    sliceAt (frameOf band payload) 6 2 = [0, 0] ∧
    sliceAt (frameOf band payload) 8 8 = band.transferId ∧
    sliceAt (frameOf band payload) 16 2 = writeWord 2 band.width ∧
    sliceAt (frameOf band payload) 18 2 = writeWord 2 band.height ∧
    sliceAt (frameOf band payload) 20 2 = writeWord 2 band.y ∧
    sliceAt (frameOf band payload) 22 2 = writeWord 2 band.rows ∧
    sliceAt (frameOf band payload) 24 4 = writeWord 4 payload.length ∧
    sliceAt (frameOf band payload) 28 4 = [0, 0, 0, 0] ∧
    (frameOf band payload).drop headerBytes = payload := by
  obtain ⟨transferId, width, height, y, rows, rgba⟩ := band
  dsimp only at hid ⊢
  match transferId, hid with
  | [_, _, _, _, _, _, _, _], _ =>
    refine ⟨?_, ?_, ?_, ?_, ?_, ?_, ?_, ?_, ?_, ?_, ?_, ?_⟩ <;>
      simp [sliceAt, frameOf, imageMagic, headerBytes, writeWord, encodingDeflateRaw, lowByte]

end Frames

section Compression

variable {deflateRaw : Bytes → Bytes} {inflateRaw : Bytes → ℕ → Option Bytes}

/-- The pixels of a valid band fit an image. -/
theorem rgba_le {band : DecodedBand} (h : band.Valid) : band.rgba.length ≤ imageMaxBytes := by
  have hrows : band.rows ≤ imageMaxHeight := by
    have hbound := h.rows.2
    have hheight := h.height.2
    omega
  have hpixels : band.width * band.rows ≤ imageMaxWidth * imageMaxHeight :=
    Nat.mul_le_mul h.width.2 hrows
  rw [h.rgba]
  unfold imageMaxBytes
  omega

/-- A valid band is encoded unless its compressed pixels do not fit. -/
theorem encodeImageBand_of_valid (deflateRaw : Bytes → Bytes) {band : DecodedBand}
    (h : band.Valid)
    (hid : band.transferId.length = 8) :
    encodeImageBand deflateRaw band =
      if (deflateRaw band.rgba).length < 1 ∨ (deflateRaw band.rgba).length > imageBandMaxBytes then
        .error "image_band_compressed_oversize"
      else .ok (frameOf band (deflateRaw band.rgba)) := by
  have hwidth : integer band.width 1 imageMaxWidth "image_width_invalid" = .ok () :=
    integer_ok_iff.mpr h.width
  have hheight : integer band.height 1 imageMaxHeight "image_height_invalid" = .ok () :=
    integer_ok_iff.mpr h.height
  have hy : integer band.y 0 (band.height - 1) "image_band_y_invalid" = .ok () :=
    integer_ok_iff.mpr ⟨Nat.zero_le _, h.y⟩
  have hrows : integer band.rows 1 (band.height - band.y) "image_band_rows_invalid" = .ok () :=
    integer_ok_iff.mpr h.rows
  have htransfer : failIf (band.transferId.length ≠ 8) "image_transfer_id_invalid" = .ok () :=
    failIf_ok_iff.mpr (decide_eq_false (not_not.mpr hid))
  have hpixels : failIf (band.rgba.length ≠ band.width * band.rows * 4 ∨
      band.rgba.length > imageMaxBytes) "image_band_payload_invalid" = .ok () := by
    refine failIf_ok_iff.mpr (decide_eq_false ?_)
    have hle := rgba_le h
    have hlength := h.rgba
    omega
  unfold encodeImageBand
  rw [hwidth, ok_bind, hheight, ok_bind, htransfer, ok_bind, hy, ok_bind, hrows, ok_bind, hpixels,
    ok_bind]
  unfold failIf
  by_cases hsize : (deflateRaw band.rgba).length < 1 ∨
      (deflateRaw band.rgba).length > imageBandMaxBytes
  · simp only [decide_eq_true hsize, if_true, if_pos hsize, error_bind]
  · simp only [decide_eq_false hsize, Bool.false_eq_true, if_false, if_neg hsize, ok_bind]
    rfl

/-- A valid band is read back from its frame. -/
theorem decodeImageBand_frameOf {band : DecodedBand} (h : band.Valid)
    (hid : band.transferId.length = 8) {payload : Bytes}
    (hpayload : 1 ≤ payload.length ∧ payload.length ≤ imageBandMaxBytes)
    (hinflate : inflateRaw payload (band.width * band.rows * 4) = some band.rgba) :
    decodeImageBand inflateRaw (frameOf band payload) = .ok band := by
  obtain ⟨hmagic, hversion, hencoding, hzero, htransfer, hwidth, hheight, hy, hrows, hlength,
    hreserved, hdrop⟩ := frameOf_fields payload hid
  have hsize := frameOf_length payload hid
  have hwidthBound := h.width.2
  have hheightBound := h.height.2
  have hyBound := h.y
  have hrowsBound := h.rows.2
  unfold imageMaxWidth at hwidthBound
  unfold imageMaxHeight at hheightBound
  have hpayloadBound := hpayload.2
  unfold imageBandMaxBytes at hpayloadBound
  have hwidthWord : wordAt (frameOf band payload) 16 2 = band.width := by
    unfold wordAt
    rw [hwidth, readWord_writeWord_of_lt (by omega)]
  have hheightWord : wordAt (frameOf band payload) 18 2 = band.height := by
    unfold wordAt
    rw [hheight, readWord_writeWord_of_lt (by omega)]
  have hyWord : wordAt (frameOf band payload) 20 2 = band.y := by
    unfold wordAt
    rw [hy, readWord_writeWord_of_lt (by omega)]
  have hrowsWord : wordAt (frameOf band payload) 22 2 = band.rows := by
    unfold wordAt
    rw [hrows, readWord_writeWord_of_lt (by omega)]
  have hlengthWord : wordAt (frameOf band payload) 24 4 = payload.length := by
    unfold wordAt
    rw [hlength, readWord_writeWord_of_lt (by omega)]
  have hframe : failIf ((frameOf band payload).length ≤ headerBytes ∨
      (frameOf band payload).length > headerBytes + imageBandMaxBytes)
      "image_frame_size_invalid" = .ok () := by
    refine failIf_ok_iff.mpr (decide_eq_false ?_)
    omega
  have hheader : failIf (sliceAt (frameOf band payload) 0 4 ≠ imageMagic ∨
      wordAt (frameOf band payload) 4 1 ≠ 1 ∨
      wordAt (frameOf band payload) 5 1 ≠ encodingDeflateRaw ∨
      wordAt (frameOf band payload) 6 2 ≠ 0 ∨ wordAt (frameOf band payload) 28 4 ≠ 0)
      "image_frame_header_invalid" = .ok () := by
    refine failIf_ok_iff.mpr (decide_eq_false ?_)
    unfold wordAt
    rw [hmagic, hversion, hencoding, hzero, hreserved]
    decide
  unfold decodeImageBand
  rw [hframe, ok_bind, hheader, ok_bind]
  dsimp only
  rw [hwidthWord, hheightWord, hyWord, hrowsWord, hlengthWord, hdrop, hinflate, htransfer]
  rw [failIf_ok_iff.mpr (decide_eq_false (not_not.mpr rfl)), ok_bind,
    integer_ok_iff.mpr h.width, ok_bind, integer_ok_iff.mpr h.height, ok_bind,
    integer_ok_iff.mpr ⟨Nat.zero_le _, h.y⟩, ok_bind, integer_ok_iff.mpr h.rows, ok_bind]
  dsimp only
  rw [failIf_ok_iff.mpr (decide_eq_false (not_not.mpr h.rgba)), ok_bind]
  rfl

/-- A compression as the sender relies on it. -/
structure Lossless (deflateRaw : Bytes → Bytes) (inflateRaw : Bytes → ℕ → Option Bytes) : Prop where
  /-- A raw deflate stream has at least one block header. -/
  stream : ∀ body, 1 ≤ (deflateRaw body).length
  /-- Inflating gives back what was deflated, when there is room for it. -/
  inverse : ∀ body maximum, body.length ≤ imageMaxBytes → body.length ≤ maximum →
    inflateRaw (deflateRaw body) maximum = some body
  /-- A single row stays small. -/
  row : ∀ body, body.length ≤ 384 → (deflateRaw body).length ≤ imageBandMaxBytes

end Compression

/-- What a raster that can be sent satisfies. -/
structure Sendable (raster : Raster) : Prop where
  /-- Eight bytes of identifier. -/
  transferId : raster.transferId.length = 8
  /-- A width within bounds. -/
  width : 1 ≤ raster.width ∧ raster.width ≤ imageMaxWidth
  /-- A height within bounds. -/
  height : 1 ≤ raster.height ∧ raster.height ≤ imageMaxHeight
  /-- It has all its pixels. -/
  rgba : raster.rgba.length = raster.width * raster.height * 4

section Sender

variable {deflateRaw : Bytes → Bytes} {inflateRaw : Bytes → ℕ → Option Bytes} {raster : Raster}

theorem subarray_length {bytes : Bytes} (start : ℕ) {finish : ℕ}
    (h : finish ≤ bytes.length) :
    (subarray bytes start finish).length = finish - start := by
  simp only [subarray, List.length_drop, List.length_take]
  omega

/-- The pixels in front of a row are pixels of the raster. -/
theorem Sendable.pixels_le (h : Sendable raster) {row : ℕ} (hrow : row ≤ raster.height) :
    row * raster.width * 4 ≤ raster.rgba.length := by
  have hmul : row * raster.width * 4 ≤ raster.height * raster.width * 4 :=
    Nat.mul_le_mul_right 4 (Nat.mul_le_mul_right raster.width hrow)
  rw [h.rgba, Nat.mul_comm raster.width]
  exact hmul

/-- Rows of a raster are a valid band. -/
theorem Sendable.band (h : Sendable raster) {y rows : ℕ} (hrows : 1 ≤ rows)
    (hlast : y + rows ≤ raster.height) : (raster.band y rows).Valid := by
  have hfinish := h.pixels_le hlast
  refine ⟨h.width, h.height, ?_, ⟨hrows, ?_⟩, ?_⟩
  · have hy : y ≤ raster.height - 1 := by omega
    exact hy
  · have hle : rows ≤ raster.height - y := by omega
    exact hle
  · have hlength := subarray_length (y * raster.width * 4) hfinish
    have hdifference : (y + rows) * raster.width * 4 - y * raster.width * 4 =
        raster.width * rows * 4 := by
      rw [Nat.add_mul, Nat.add_mul, Nat.add_sub_cancel_left, Nat.mul_comm rows]
    rw [hdifference] at hlength
    exact hlength

/-- The datagram of a band. -/
def frameFor (deflateRaw : Bytes → Bytes) (band : DecodedBand) : Bytes :=
  frameOf band (deflateRaw band.rgba)

/-- A band of a raster that fits a datagram. -/
structure Fits (deflateRaw : Bytes → Bytes) (raster : Raster) (band : DecodedBand) : Prop where
  /-- It has its place in the image. -/
  valid : band.Valid
  /-- It has the rows of the raster. -/
  rows : band = raster.band band.y band.rows
  /-- Its compressed pixels fit. -/
  payload : (deflateRaw band.rgba).length ≤ imageBandMaxBytes

/-- The transfer identifier of a band is its raster's. -/
theorem Fits.transferId (hraster : Sendable raster) {band : DecodedBand}
    (h : Fits deflateRaw raster band) : band.transferId.length = 8 := by
  rw [h.rows]
  exact hraster.transferId

/-- The datagram of a band stays below the path limit. -/
theorem Fits.length (hraster : Sendable raster) {band : DecodedBand}
    (h : Fits deflateRaw raster band) : (frameFor deflateRaw band).length ≤ 1232 := by
  have hpayload := h.payload
  have hframe := frameOf_length (deflateRaw band.rgba) (h.transferId hraster)
  unfold imageBandMaxBytes at hpayload
  unfold headerBytes at hframe
  unfold frameFor
  omega

/-- Fewer rows are taken until the band fits, at the latest for a single row. -/
theorem nextBand_ok (hcompress : Lossless deflateRaw inflateRaw) (hraster : Sendable raster)
    {y limit : ℕ} (hlimit : 1 ≤ limit) (hlast : y + limit ≤ raster.height) :
    ∃ rows, rows ≤ limit ∧ Fits deflateRaw raster (raster.band y rows) ∧
      nextBand deflateRaw raster y limit =
        .ok (rows, frameFor deflateRaw (raster.band y rows)) := by
  induction limit with
  | zero => omega
  | succ limit ih =>
    have hvalid := hraster.band (y := y) hlimit hlast
    have hstream := hcompress.stream (raster.band y (limit + 1)).rgba
    have hencode := encodeImageBand_of_valid deflateRaw hvalid hraster.transferId
    by_cases hsize : (deflateRaw (raster.band y (limit + 1)).rgba).length ≤ imageBandMaxBytes
    · rw [if_neg (by omega)] at hencode
      refine ⟨limit + 1, le_refl _, ⟨hvalid, rfl, hsize⟩, ?_⟩
      unfold nextBand
      rw [hencode]
      rfl
    · have hmore : limit ≠ 0 := by
        rintro rfl
        apply hsize
        apply hcompress.row
        have hlength := hvalid.rgba
        have hwidth := hraster.width.2
        unfold imageMaxWidth at hwidth
        change (raster.band y (0 + 1)).rgba.length = raster.width * (0 + 1) * 4 at hlength
        omega
      obtain ⟨rows, hrows, hfits, hnext⟩ := ih (by omega) (by omega)
      rw [if_pos (by omega)] at hencode
      refine ⟨rows, by omega, hfits, ?_⟩
      unfold nextBand
      rw [hencode]
      dsimp only
      rw [if_neg (by simp only [ne_eq, not_true_eq_false, false_or]; omega)]
      exact hnext

/-- A band that is encoded and sent is followed by the bands behind it. -/
theorem sendBands_step {sendDatagram : Bytes → Except String Unit} {y rows : ℕ} {frame : Bytes}
    (hy : y < raster.height)
    (hnext : nextBand deflateRaw raster y (min imageBandTargetRows (raster.height - y)) =
      .ok (rows, frame))
    (hsend : sendDatagram frame = .ok ()) :
    sendBands deflateRaw sendDatagram raster y =
      (frame :: (sendBands deflateRaw sendDatagram raster (y + rows)).1,
        (sendBands deflateRaw sendDatagram raster (y + rows)).2.map (· + 1)) := by
  rw [sendBands, if_pos hy]
  split
  · next hfailed =>
    rw [hnext] at hfailed
    cases hfailed
  · next hband =>
    rw [hnext] at hband
    cases hband
    rw [hsend]

/-- The bands from a row on follow each other and are all sent. -/
theorem sendBands_tiles (hcompress : Lossless deflateRaw inflateRaw) (hraster : Sendable raster)
    {sendDatagram : Bytes → Except String Unit}
    (hsocket : ∀ frame, frame.length ≤ 1232 → sendDatagram frame = .ok ()) {y : ℕ}
    (hy : y ≤ raster.height) :
    ∃ bands : List DecodedBand, Tiles DecodedBand.y DecodedBand.rows y bands raster.height ∧
      (∀ band ∈ bands, Fits deflateRaw raster band) ∧
      sendBands deflateRaw sendDatagram raster y =
        (bands.map (frameFor deflateRaw), .ok bands.length) := by
  generalize hremaining : raster.height - y = remaining
  induction remaining using Nat.strong_induction_on generalizing y with
  | _ remaining ih =>
    by_cases hmore : y < raster.height
    · have hpositive : 1 ≤ min imageBandTargetRows (raster.height - y) := by
        unfold imageBandTargetRows
        omega
      obtain ⟨rows, hrows, hfits, hnext⟩ := nextBand_ok hcompress hraster (y := y) hpositive
        (by omega)
      have hrowsPositive : 1 ≤ rows := hfits.valid.rows.1
      obtain ⟨bands, htiles, hall, hsent⟩ := ih (raster.height - (y + rows)) (by omega)
        (y := y + rows) (by omega) rfl
      refine ⟨raster.band y rows :: bands, ⟨rfl, hrowsPositive, htiles⟩, ?_, ?_⟩
      · intro band hmem
        rcases List.mem_cons.mp hmem with rfl | hmem
        · exact hfits
        · exact hall band hmem
      · rw [sendBands_step hmore hnext (hsocket _ (hfits.length hraster)), hsent]
        rfl
    · have hend : y = raster.height := by omega
      refine ⟨[], hend, ?_, ?_⟩
      · intro band hmem
        cases hmem
      · rw [sendBands, if_neg hmore]
        rfl

/-- Bands that follow each other have the remaining pixels of the raster. -/
theorem flatMap_rgba (hraster : Sendable raster) {bands : List DecodedBand} {y : ℕ}
    (htiles : Tiles DecodedBand.y DecodedBand.rows y bands raster.height)
    (hall : ∀ band ∈ bands, band = raster.band band.y band.rows) :
    bands.flatMap DecodedBand.rgba = raster.rgba.drop (y * raster.width * 4) := by
  induction bands generalizing y with
  | nil =>
    have hend : y = raster.height := htiles
    rw [List.flatMap_nil, hend, Nat.mul_comm raster.height, ← hraster.rgba, List.drop_length]
  | cons band bands ih =>
    obtain ⟨hy, -, hrest⟩ := htiles
    have hband := hall band List.mem_cons_self
    have hpixels : band.rgba = subarray raster.rgba (y * raster.width * 4)
        ((y + band.rows) * raster.width * 4) := by
      rw [hband, ← hy]
      rfl
    have hle : y * raster.width * 4 ≤ (y + band.rows) * raster.width * 4 :=
      Nat.mul_le_mul_right 4 (Nat.mul_le_mul_right raster.width (Nat.le_add_right _ _))
    rw [List.flatMap_cons, ih hrest (fun other hmem => hall other (List.mem_cons_of_mem _ hmem)),
      hpixels]
    have hbound := hraster.pixels_le hrest.start_le
    have hfront : y * raster.width * 4 ≤
        (raster.rgba.take ((y + band.rows) * raster.width * 4)).length := by
      rw [List.length_take]
      omega
    unfold subarray
    rw [← List.drop_append_of_le_length hfront, List.take_append_drop]

end Sender

section Receiver

variable {deflateRaw : Bytes → Bytes} {inflateRaw : Bytes → ℕ → Option Bytes} {raster : Raster}
variable {receiver : ImageTransferOptions}

/-- A band of a sendable raster is read back from its datagram. -/
theorem Fits.decode (hcompress : Lossless deflateRaw inflateRaw) (hraster : Sendable raster)
    {band : DecodedBand} (h : Fits deflateRaw raster band) :
    decodeImageBand inflateRaw (frameFor deflateRaw band) = .ok band := by
  refine decodeImageBand_frameOf h.valid (h.transferId hraster) ⟨hcompress.stream _, h.payload⟩ ?_
  exact hcompress.inverse _ _ (rgba_le h.valid) h.valid.rgba.le

/-- The datagram of a band as it reaches the receiver. -/
def datagramOf (deflateRaw : Bytes → Bytes) (receiver : ImageTransferOptions)
    (band : DecodedBand) : Datagram :=
  ⟨frameFor deflateRaw band, receiver.peerIpv6⟩

/-- The receiver takes the band out of its datagram. -/
theorem Fits.bandOf (hcompress : Lossless deflateRaw inflateRaw) (hraster : Sendable raster)
    (hrole : receiver.role = .b) {band : DecodedBand} (h : Fits deflateRaw raster band) :
    bandOf inflateRaw receiver (datagramOf deflateRaw receiver band) = some band := by
  have hpeer : ¬(receiver.role ≠ .b ∨
      (datagramOf deflateRaw receiver band).address ≠ receiver.peerIpv6) := by
    rintro (hother | hother)
    · exact hother hrole
    · exact hother rfl
  have hdecode : decodeImageBand inflateRaw (datagramOf deflateRaw receiver band).frame =
      .ok band := h.decode hcompress hraster
  unfold ImageCoverage.bandOf
  rw [if_neg hpeer, hdecode]
  rfl

/-- What a receiver holds after some bands of a raster came. -/
structure Holds (raster : Raster) (seen : List DecodedBand) (transfer : TransferState) : Prop where
  /-- One band for each first row. -/
  kept : Kept transfer
  /-- Exactly the bands that came. -/
  entries : ∀ entry, entry ∈ transfer.received ↔ entry ∈ seen.map entryOf
  /-- The transfer is that of the raster. -/
  started : seen ≠ [] → transfer.snapshot.transferId = some raster.transferId ∧
    transfer.snapshot.width = raster.width ∧ transfer.snapshot.height = raster.height

/-- A new receiver holds no band. -/
theorem holds_createImageTransfer (raster : Raster) : Holds raster [] createImageTransfer := by
  refine ⟨kept_createImageTransfer, ?_, ?_⟩
  · intro entry
    exact Iff.rfl
  · intro hne
    exact absurd rfl hne

/-- A band of the raster forgets no other band of it. -/
theorem Holds.received_startTransfer {seen : List DecodedBand} {transfer : TransferState}
    (h : Holds raster seen transfer) {band : DecodedBand}
    (hband : band = raster.band band.y band.rows) :
    (startTransfer transfer band).received = transfer.received := by
  unfold startTransfer
  by_cases hseen : seen = []
  · have hnone : transfer.received = [] := by
      rw [List.eq_nil_iff_forall_not_mem]
      intro entry hmem
      have hcame := (h.entries entry).mp hmem
      rw [hseen] at hcame
      cases hcame
    rw [hnone]
    split <;> first | rfl | exact hnone
  · obtain ⟨hid, hwidth, hheight⟩ := h.started hseen
    have hsame : ¬(transfer.snapshot.transferId ≠ some band.transferId ∨
        transfer.snapshot.width ≠ band.width ∨ transfer.snapshot.height ≠ band.height) := by
      rw [hid, hwidth, hheight, hband]
      simp only [Raster.band, ne_eq, not_true_eq_false, or_self, not_false_eq_true]
    rw [if_neg hsame]

/-- One more band of the raster comes. -/
theorem Holds.receive (hcompress : Lossless deflateRaw inflateRaw) (hraster : Sendable raster)
    (hrole : receiver.role = .b) {bands seen : List DecodedBand} {transfer : TransferState}
    (hfits : ∀ band ∈ bands, Fits deflateRaw raster band)
    (hkey : ∀ left ∈ bands, ∀ right ∈ bands, left.y = right.y → left = right)
    (hseen : ∀ band ∈ seen, band ∈ bands) (h : Holds raster seen transfer) {band : DecodedBand}
    (hband : band ∈ bands) :
    Holds raster (band :: seen)
      (receive inflateRaw receiver transfer (datagramOf deflateRaw receiver band)) := by
  have hfit := hfits band hband
  have hstarted := started_startTransfer transfer band
  have hkept := h.kept.startTransfer hfit.valid
  have hperm := storeBand_perm hkept band
  have hreceived := h.received_startTransfer hfit.rows
  rw [receive_of_some (hfit.bandOf hcompress hraster hrole)]
  refine ⟨hkept.storeBand hfit.valid hstarted, ?_, ?_⟩
  · intro entry
    rw [hperm.mem_iff, List.mem_cons, List.map_cons, List.mem_cons]
    unfold others
    rw [hreceived, List.mem_filter, h.entries]
    constructor
    · rintro (hentry | ⟨hentry, -⟩)
      · exact Or.inl hentry
      · exact Or.inr hentry
    · rintro (hentry | hentry)
      · exact Or.inl hentry
      · by_cases hy : entry.y = band.y
        · obtain ⟨other, hother, rfl⟩ := List.mem_map.mp hentry
          have hsame := hkey other (hseen other hother) band hband hy
          exact Or.inl (by rw [hsame])
        · exact Or.inr ⟨hentry, decide_eq_true hy⟩
  · intro _
    have hafter := hstarted.storeBand
    rw [hafter.transferId, hafter.width, hafter.height, hfit.rows]
    exact ⟨rfl, rfl, rfl⟩

/-- Any number of bands of the raster come, in any order. -/
theorem Holds.run (hcompress : Lossless deflateRaw inflateRaw) (hraster : Sendable raster)
    (hrole : receiver.role = .b) {bands : List DecodedBand}
    (hfits : ∀ band ∈ bands, Fits deflateRaw raster band)
    (hkey : ∀ left ∈ bands, ∀ right ∈ bands, left.y = right.y → left = right)
    {delivered seen : List DecodedBand} (hdelivered : ∀ band ∈ delivered, band ∈ bands)
    (hseen : ∀ band ∈ seen, band ∈ bands) {transfer : TransferState}
    (h : Holds raster seen transfer) :
    Holds raster (delivered.reverse ++ seen)
      (run (ImageCoverage.receive inflateRaw receiver) transfer
        (delivered.map (datagramOf deflateRaw receiver))) := by
  induction delivered generalizing seen transfer with
  | nil => exact h
  | cons band delivered ih =>
    have hband := hdelivered band List.mem_cons_self
    have hnext := h.receive hcompress hraster hrole hfits hkey hseen hband
    have hmore : ∀ other ∈ band :: seen, other ∈ bands := List.forall_mem_cons.mpr ⟨hband, hseen⟩
    have hrest := ih (fun other hmem => hdelivered other (List.mem_cons_of_mem _ hmem)) hmore hnext
    rw [List.reverse_cons, List.append_assoc]
    exact hrest

/-- A list of datagrams of bands is the datagrams of a list of bands. -/
theorem exists_bands {bands : List DecodedBand} {delivered : List Bytes}
    (h : ∀ frame ∈ delivered, frame ∈ bands.map (frameFor deflateRaw)) :
    ∃ chosen : List DecodedBand, (∀ band ∈ chosen, band ∈ bands) ∧
      delivered = chosen.map (frameFor deflateRaw) := by
  induction delivered with
  | nil =>
    refine ⟨[], ?_, rfl⟩
    intro band hmem
    cases hmem
  | cons frame delivered ih =>
    obtain ⟨band, hband, rfl⟩ := List.mem_map.mp (h frame List.mem_cons_self)
    obtain ⟨chosen, hchosen, rfl⟩ := ih (fun other hmem => h other (List.mem_cons_of_mem _ hmem))
    exact ⟨band :: chosen, List.forall_mem_cons.mpr ⟨hband, hchosen⟩, rfl⟩

/-- A receiver that holds all bands of a tiling shows them in order, and the image complete. Sorting
by the first row puts a tiling in its order, however the bands came. -/
theorem Holds.complete (hraster : Sendable raster) {bands seen : List DecodedBand}
    (htiles : Tiles DecodedBand.y DecodedBand.rows 0 bands raster.height)
    (hkey : ∀ left ∈ bands, ∀ right ∈ bands, left.y = right.y → left = right)
    (hall : ∀ band, band ∈ seen ↔ band ∈ bands) {transfer : TransferState}
    (h : Holds raster seen transfer) :
    transfer.snapshot.complete = true ∧ transfer.snapshot.bands = bands.map entryOf := by
  have hsum := htiles.sum_size
  have hheight := hraster.height.1
  have hnonempty : seen ≠ [] := by
    rintro rfl
    have hnone : bands = [] := by
      rw [List.eq_nil_iff_forall_not_mem]
      intro band hmem
      have hcame := (hall band).mpr hmem
      cases hcame
    rw [hnone, List.map_nil, List.sum_nil] at hsum
    omega
  obtain ⟨hid, -, hrows⟩ := h.started hnonempty
  have hentries : ∀ entry, entry ∈ transfer.received ↔ entry ∈ bands.map entryOf := by
    intro entry
    rw [h.entries, List.mem_map, List.mem_map]
    simp only [hall]
  have hsorted : (bands.map entryOf).Pairwise (fun left right => left.y < right.y) := by
    rw [List.pairwise_map]
    exact htiles.sorted
  have hnodup : (bands.map entryOf).Nodup := by
    refine hsorted.imp ?_
    intro left right hlt heq
    rw [heq] at hlt
    omega
  have hperm : transfer.received.Perm (bands.map entryOf) :=
    (List.perm_ext_iff_of_nodup h.kept.nodup.of_map hnodup).mpr hentries
  constructor
  · refine h.kept.complete.mpr ⟨?_, ?_⟩
    · rw [hid]
      exact Option.some_ne_none _
    · have hsizes : (bands.map entryOf).map ImageTransferBand.rows =
          bands.map DecodedBand.rows := by
        rw [List.map_map]
        rfl
      rw [(hperm.map ImageTransferBand.rows).sum_eq, hsizes, hrows]
      omega
  · rw [h.kept.bands]
    have htrans : IsTrans ImageTransferBand (fun left right => left.y ≤ right.y) :=
      ⟨fun _ _ _ hleft hright => le_trans hleft hright⟩
    have htotal : Std.Total (fun left right : ImageTransferBand => left.y ≤ right.y) :=
      ⟨fun left right => le_total left.y right.y⟩
    refine List.Perm.eq_of_pairwise ?_ (List.pairwise_insertionSort _ _)
      (hsorted.imp (fun hlt => hlt.le)) ((List.perm_insertionSort _ _).trans hperm)
    intro left right hleft hright hle hge
    rw [List.mem_insertionSort, hentries] at hleft
    obtain ⟨first, hfirst, rfl⟩ := List.mem_map.mp hleft
    obtain ⟨second, hsecond, rfl⟩ := List.mem_map.mp hright
    rw [hkey first hfirst second hsecond (le_antisymm hle hge)]

end Receiver

/-- A raster is sent in bands that follow each other and cover its rows, in datagrams of at most
1232 bytes. A fresh receiver that gets each of these datagrams, in any order and with any
repetitions, shows the image complete with the pixels of the raster. -/
theorem image_lossless {deflateRaw : Bytes → Bytes} {inflateRaw : Bytes → ℕ → Option Bytes}
    (hcompress : Lossless deflateRaw inflateRaw) {sendDatagram : Bytes → Except String Unit}
    (hsocket : ∀ frame, frame.length ≤ 1232 → sendDatagram frame = .ok ())
    {sender receiver : ImageTransferOptions} (hsender : sender.role = .a)
    (hreceiver : receiver.role = .b) {transfer : TransferState} (hopen : transfer.closed = false)
    {raster : Raster} (hraster : Sendable raster) :
    ∃ bands : List DecodedBand,
      (send deflateRaw sendDatagram sender transfer raster).bands = .ok bands.length ∧
      Tiles DecodedBand.y DecodedBand.rows 0 bands raster.height ∧
      List.Forall₂ (fun frame band => decodeImageBand inflateRaw frame = .ok band)
        (send deflateRaw sendDatagram sender transfer raster).datagrams bands ∧
      (∀ frame ∈ (send deflateRaw sendDatagram sender transfer raster).datagrams,
        frame.length ≤ 1232) ∧
      ∀ delivered : List Bytes,
        (∀ frame, frame ∈ delivered ↔
          frame ∈ (send deflateRaw sendDatagram sender transfer raster).datagrams) →
        (run (receive inflateRaw receiver) createImageTransfer
          (delivered.map (fun frame => ⟨frame, receiver.peerIpv6⟩))).snapshot.complete = true ∧
        (run (receive inflateRaw receiver) createImageTransfer
          (delivered.map (fun frame => ⟨frame, receiver.peerIpv6⟩))).snapshot.bands.flatMap
            ImageTransferBand.rgba = raster.rgba := by
  obtain ⟨bands, htiles, hfits, hsent⟩ := sendBands_tiles hcompress hraster hsocket
    (Nat.zero_le raster.height)
  have hvalidated : validateRaster raster.width raster.height raster.rgba = .ok () := by
    have hpixels : raster.width * raster.height ≤ imageMaxWidth * imageMaxHeight :=
      Nat.mul_le_mul hraster.width.2 hraster.height.2
    have hsize : failIf (raster.rgba.length ≠ raster.width * raster.height * 4 ∨
        raster.rgba.length > imageMaxBytes) "image_raster_invalid" = .ok () := by
      refine failIf_ok_iff.mpr (decide_eq_false ?_)
      rw [hraster.rgba]
      unfold imageMaxBytes
      omega
    unfold validateRaster
    rw [integer_ok_iff.mpr hraster.width, ok_bind, integer_ok_iff.mpr hraster.height, ok_bind,
      hsize]
  have hdatagrams : (send deflateRaw sendDatagram sender transfer raster).datagrams =
      bands.map (frameFor deflateRaw) ∧
      (send deflateRaw sendDatagram sender transfer raster).bands = .ok bands.length := by
    unfold send
    rw [if_neg (by simp [hopen, hsender]), hvalidated]
    dsimp only
    rw [hsent]
    exact ⟨rfl, rfl⟩
  obtain ⟨hdatagrams, hcount⟩ := hdatagrams
  have hkey := htiles.eq_of_first
  refine ⟨bands, hcount, htiles, ?_, ?_, ?_⟩
  · rw [hdatagrams, List.forall₂_map_left_iff, List.forall₂_same]
    intro band hmem
    exact (hfits band hmem).decode hcompress hraster
  · rw [hdatagrams]
    intro frame hmem
    obtain ⟨band, hband, rfl⟩ := List.mem_map.mp hmem
    exact (hfits band hband).length hraster
  · intro delivered hdelivered
    rw [hdatagrams] at hdelivered
    obtain ⟨chosen, hchosen, rfl⟩ := exists_bands (fun frame hmem => (hdelivered frame).mp hmem)
    have hall : ∀ band, band ∈ chosen.reverse ++ [] ↔ band ∈ bands := by
      intro band
      rw [List.append_nil, List.mem_reverse]
      refine ⟨hchosen band, fun hmem => ?_⟩
      have hframe := (hdelivered (frameFor deflateRaw band)).mpr (List.mem_map_of_mem hmem)
      obtain ⟨other, hother, heq⟩ := List.mem_map.mp hframe
      have hdecoded := (hfits other (hchosen other hother)).decode hcompress hraster
      rw [heq, (hfits band hmem).decode hcompress hraster] at hdecoded
      rw [Except.ok.inj hdecoded]
      exact hother
    have hnone : ∀ band ∈ ([] : List DecodedBand), band ∈ bands := by
      intro band hmem
      cases hmem
    have hholds := (holds_createImageTransfer raster).run hcompress hraster hreceiver hfits hkey
      hchosen hnone
    obtain ⟨hcomplete, hbands⟩ := hholds.complete hraster htiles hkey hall
    rw [List.map_map]
    refine ⟨hcomplete, ?_⟩
    have hpixels := flatMap_rgba hraster htiles (fun band hmem => (hfits band hmem).rows)
    rw [Nat.zero_mul, Nat.zero_mul, List.drop_zero] at hpixels
    have hshown : (bands.map entryOf).flatMap ImageTransferBand.rgba = raster.rgba := by
      rw [List.flatMap_map]
      exact hpixels
    rw [← hbands] at hshown
    exact hshown

/-- Raw deflate streams of two bodies, and a stored block for every other body. -/
def benchDeflate (body : Bytes) : Bytes :=
  if body = List.replicate 24 9 then [0xe3, 0xe4, 0xc4, 0x0e, 0x00]
  else if body = List.replicate 8 9 then [0xe3, 0xe4, 0x84, 0x00, 0x00]
  else storedBlock body

/-- Raw inflate of these streams. -/
def benchInflate (payload : Bytes) (maximum : ℕ) : Option Bytes :=
  if payload = [0xe3, 0xe4, 0xc4, 0x0e, 0x00] then
    if 24 ≤ maximum then some (List.replicate 24 9) else none
  else if payload = [0xe3, 0xe4, 0x84, 0x00, 0x00] then
    if 8 ≤ maximum then some (List.replicate 8 9) else none
  else inflateStored payload maximum

/-- A stored block is inflated to its data. -/
theorem inflateStored_storedBlock {data : Bytes} {maximum : ℕ} (hsize : data.length ≤ 0xffff)
    (hroom : data.length ≤ maximum) : inflateStored (storedBlock data) maximum = some data := by
  have hdata : (storedBlock data).drop 5 = data := by
    simp [storedBlock, writeWord]
  have hkind : wordAt (storedBlock data) 0 1 = 1 := by
    simp [wordAt, sliceAt, storedBlock, readWord]
  have hlength : wordAt (storedBlock data) 1 2 = data.length := by
    have hslice : sliceAt (storedBlock data) 1 2 = writeWord 2 data.length := by
      simp [sliceAt, storedBlock, writeWord]
    unfold wordAt
    rw [hslice, readWord_writeWord_of_lt (by omega)]
  have hcomplement : wordAt (storedBlock data) 3 2 = 0xffff - data.length := by
    have hslice : sliceAt (storedBlock data) 3 2 = writeWord 2 (0xffff - data.length) := by
      simp [sliceAt, storedBlock, writeWord]
    unfold wordAt
    rw [hslice, readWord_writeWord_of_lt (by omega)]
  unfold inflateStored
  rw [hdata, hkind, hlength, hcomplement, if_pos ⟨rfl, rfl, rfl, hroom⟩]

/-- Stored blocks are taken apart as they were put together. -/
theorem lossless_bench : Lossless benchDeflate benchInflate := by
  have hhead : ∀ body, (storedBlock body).head? = some 1 := fun _ => rfl
  refine ⟨fun body => ?_, fun body maximum hsize hroom => ?_, fun body hrow => ?_⟩
  · unfold benchDeflate
    split
    · decide
    · split
      · decide
      · simp [storedBlock]
  · unfold benchDeflate
    split
    · next hbody =>
      subst hbody
      have hfits : 24 ≤ maximum := hroom
      unfold benchInflate
      rw [if_pos rfl, if_pos hfits]
    · split
      · next hbody =>
        subst hbody
        have hfits : 8 ≤ maximum := hroom
        unfold benchInflate
        rw [if_neg (by decide), if_pos rfl, if_pos hfits]
      · have hfirst : ∀ other : Bytes, other.head? ≠ some 1 → storedBlock body ≠ other := by
          intro other hother heq
          exact hother (heq ▸ hhead body)
        unfold benchInflate
        rw [if_neg (hfirst _ (by decide)), if_neg (hfirst _ (by decide))]
        have hmax : imageMaxBytes = 36864 := rfl
        exact inflateStored_storedBlock (by omega) hroom
  · have hmax : imageBandMaxBytes = 1200 := rfl
    unfold benchDeflate
    split
    · decide
    · split
      · decide
      · simp only [storedBlock, List.length_append, List.length_cons, List.length_nil,
          writeWord_length]
        omega

/-- A raster of one column and eight rows. -/
def benchRaster : Raster := ⟨List.replicate 8 7, 1, 8, List.replicate 32 9⟩

/-- A sender whose socket takes every datagram. -/
def benchSend : SendResult :=
  send benchDeflate (fun _ => .ok ()) ⟨.a, "fd00::2"⟩ createImageTransfer benchRaster

/-- Two bands of stored blocks bring the raster of the run below over. -/
theorem image_lossless_bench :
    ∃ bands : List DecodedBand, benchSend.bands = .ok bands.length ∧
      Tiles DecodedBand.y DecodedBand.rows 0 bands 8 ∧
      ∀ delivered : List Bytes, (∀ frame, frame ∈ delivered ↔ frame ∈ benchSend.datagrams) →
        (run (receive benchInflate benchReceiver) createImageTransfer
          (delivered.map (fun frame => ⟨frame, "fd00::1"⟩))).snapshot.complete = true := by
  have hraster : Sendable benchRaster := by
    refine ⟨by decide, by decide, by decide, by decide⟩
  have hsender : (⟨.a, "fd00::2"⟩ : ImageTransferOptions).role = .a := rfl
  have hreceiver : benchReceiver.role = .b := rfl
  have hsocket : ∀ frame : Bytes, frame.length ≤ 1232 →
      (fun _ => .ok () : Bytes → Except String Unit) frame = .ok () := fun _ _ => rfl
  have hopen : createImageTransfer.closed = false := rfl
  obtain ⟨bands, hbands, htiles, -, -, hdelivered⟩ :=
    image_lossless lossless_bench hsocket hsender hreceiver hopen hraster
  exact ⟨bands, hbands, htiles, fun delivered hsame => (hdelivered delivered hsame).1⟩

end Fipwave.ImageDelivery
