import Fipwave.ImageTransfer
import Fipwave.SpanTiling
import Fipwave.TransitionRun

/-!
# Complete images and the rows they cover

The receiver calls an image complete when the rows of its bands add up to the
height. They cover every row once exactly if no two of the bands share a row
whenever a datagram makes them add up.
-/

namespace Fipwave.ImageCoverage

open ByteWords ImageTransfer SpanTiling TransitionRun

/-- Two bands share no row. -/
abbrev BandsApart : ImageTransferBand → ImageTransferBand → Prop :=
  Apart ImageTransferBand.y ImageTransferBand.rows

/-- The entry a band is kept as. -/
def entryOf (band : DecodedBand) : ImageTransferBand := ⟨band.y, band.rows, band.rgba⟩

section Received

variable {received : List ImageTransferBand} {entry : ImageTransferBand}

/-- What is kept under other rows stays, and the band is kept under its own. -/
theorem setBand_perm (entry : ImageTransferBand)
    (hnodup : (received.map ImageTransferBand.y).Nodup) :
    (setBand received entry).Perm (entry :: received.filter (fun other => other.y ≠ entry.y)) := by
  induction received with
  | nil => exact List.Perm.refl _
  | cons head received ih =>
    rw [List.map_cons, List.nodup_cons] at hnodup
    by_cases hhead : head.y = entry.y
    · have hrest : ∀ other ∈ received, other.y ≠ entry.y := by
        intro other hmem heq
        exact hnodup.1 (List.mem_map.mpr ⟨other, hmem, heq.trans hhead.symm⟩)
      have hmap : received.map (fun other => if other.y = entry.y then entry else other) =
          received := by
        rw [List.map_congr_left (g := id), List.map_id]
        intro other hmem
        exact if_neg (hrest other hmem)
      have hfilter : received.filter (fun other => other.y ≠ entry.y) = received := by
        rw [List.filter_eq_self]
        intro other hmem
        exact decide_eq_true (hrest other hmem)
      have hset : setBand (head :: received) entry = entry :: received := by
        unfold setBand
        rw [if_pos (by simp [hhead]), List.map_cons, if_pos hhead, hmap]
      have hdrop : (head :: received).filter (fun other => other.y ≠ entry.y) = received := by
        rw [List.filter_cons_of_neg (by simp [hhead]), hfilter]
      rw [hset, hdrop]
    · have hset : setBand (head :: received) entry = head :: setBand received entry := by
        unfold setBand
        rw [List.any_cons, List.map_cons, if_neg hhead, decide_eq_false hhead, Bool.false_or]
        split <;> rfl
      have hkeep : (head :: received).filter (fun other => other.y ≠ entry.y) =
          head :: received.filter (fun other => other.y ≠ entry.y) :=
        List.filter_cons_of_pos (by simp [hhead])
      rw [hset, hkeep]
      exact ((ih hnodup.2).cons head).trans (List.Perm.swap entry head _)

/-- A band that is kept already is what is kept under its row. -/
theorem perm_of_find (hnodup : (received.map ImageTransferBand.y).Nodup)
    (hfind : received.find? (fun other => other.y = entry.y) = some entry) :
    received.Perm (entry :: received.filter (fun other => other.y ≠ entry.y)) := by
  have hsame := setBand_perm entry hnodup
  have hset : setBand received entry = received := by
    have hmem := List.mem_of_find?_eq_some hfind
    have hany : received.any (fun other => other.y = entry.y) = true := by
      rw [List.any_eq_true]
      exact ⟨entry, hmem, decide_eq_true rfl⟩
    unfold setBand
    rw [if_pos hany, List.map_congr_left (g := id), List.map_id]
    intro other hother
    by_cases heq : other.y = entry.y
    · rw [if_pos heq]
      exact (List.inj_on_of_nodup_map hnodup hother hmem heq).symm
    · exact if_neg heq
  rwa [hset] at hsame

end Received

/-- What a receiving transfer keeps. -/
structure Kept (transfer : TransferState) : Prop where
  /-- One band for each first row. -/
  nodup : (transfer.received.map ImageTransferBand.y).Nodup
  /-- Bands have rows, and all of them are rows of the image. -/
  within : ∀ band ∈ transfer.received,
    0 < band.rows ∧ band.y + band.rows ≤ transfer.snapshot.height
  /-- The status shows the bands by their first row. -/
  bands : transfer.snapshot.bands =
    transfer.received.insertionSort (fun left right => left.y ≤ right.y)
  /-- It shows an image complete when their rows add up. -/
  complete : transfer.snapshot.complete = true ↔ transfer.snapshot.transferId ≠ none ∧
    (transfer.received.map ImageTransferBand.rows).sum = transfer.snapshot.height

/-- A new transfer has kept nothing. -/
theorem kept_createImageTransfer : Kept createImageTransfer := by
  refine ⟨List.nodup_nil, ?_, rfl, ?_⟩
  · intro band hmem
    cases hmem
  · constructor
    · intro h
      cases h
    · intro h
      exact absurd rfl h.1

/-- A transfer that was started for a band is the band's. -/
structure Started (transfer : TransferState) (band : DecodedBand) : Prop where
  /-- It has its identifier. -/
  transferId : transfer.snapshot.transferId = some band.transferId
  /-- It has its width. -/
  width : transfer.snapshot.width = band.width
  /-- It has its height. -/
  height : transfer.snapshot.height = band.height

/-- A transfer is started with the band that opened it. -/
theorem started_startTransfer (transfer : TransferState) (band : DecodedBand) :
    Started (startTransfer transfer band) band := by
  unfold startTransfer
  split
  · exact ⟨rfl, rfl, rfl⟩
  · next h =>
    simp only [not_or, not_not] at h
    exact ⟨h.1, h.2.1, h.2.2⟩

/-- Starting a transfer forgets the bands of another one. -/
theorem Kept.startTransfer {transfer : TransferState} (h : Kept transfer) {band : DecodedBand}
    (hband : band.Valid) : Kept (startTransfer transfer band) := by
  unfold ImageTransfer.startTransfer
  split
  · refine ⟨List.nodup_nil, ?_, rfl, ?_⟩
    · intro other hmem
      cases hmem
    · have hheight := hband.height.1
      simp only [List.map_nil, List.sum_nil, Bool.false_eq_true, false_iff, not_and]
      intro _ hzero
      omega
  · exact h

/-- What is kept under other first rows than that of a band. -/
def others (transfer : TransferState) (band : DecodedBand) : List ImageTransferBand :=
  transfer.received.filter (fun other => other.y ≠ band.y)

/-- After a band was stored, it is kept with those of other first rows. -/
theorem storeBand_perm {transfer : TransferState} (h : Kept transfer) (band : DecodedBand) :
    (storeBand transfer band).received.Perm (entryOf band :: others transfer band) := by
  unfold storeBand
  dsimp only
  split
  · next hfind => exact perm_of_find h.nodup hfind
  · exact setBand_perm (entryOf band) h.nodup

/-- Storing a band changes neither the identifier nor the height. -/
theorem Started.storeBand {transfer : TransferState} {band : DecodedBand}
    (h : Started transfer band) : Started (storeBand transfer band) band := by
  unfold ImageTransfer.storeBand
  dsimp only
  split
  · exact h
  · exact ⟨h.transferId, h.width, h.height⟩

/-- Storing a band keeps one band for each first row. -/
theorem Kept.storeBand {transfer : TransferState} (h : Kept transfer) {band : DecodedBand}
    (hband : band.Valid) (hstarted : Started transfer band) : Kept (storeBand transfer band) := by
  have hperm := storeBand_perm h band
  have hafter := hstarted.storeBand
  have hnodup : ((ImageTransfer.storeBand transfer band).received.map ImageTransferBand.y).Nodup := by
    rw [(hperm.map ImageTransferBand.y).nodup_iff, List.map_cons, List.nodup_cons]
    refine ⟨?_, h.nodup.sublist (List.filter_sublist.map _)⟩
    rintro hmem
    obtain ⟨other, hother, heq⟩ := List.mem_map.mp hmem
    exact of_decide_eq_true (List.mem_filter.mp hother).2 heq
  have hwithin : ∀ other ∈ (ImageTransfer.storeBand transfer band).received,
      0 < other.rows ∧
        other.y + other.rows ≤ (ImageTransfer.storeBand transfer band).snapshot.height := by
    intro other hmem
    rw [hafter.height, ← hstarted.height]
    rcases List.mem_cons.mp (hperm.mem_iff.mp hmem) with rfl | hmem
    · have hrows := hband.rows
      have hy := hband.y
      have hheight := hband.height.1
      rw [hstarted.height]
      unfold entryOf
      dsimp only
      omega
    · exact h.within other (List.mem_filter.mp hmem).1
  refine ⟨hnodup, hwithin, ?_, ?_⟩
  · unfold ImageTransfer.storeBand
    dsimp only
    split
    · exact h.bands
    · rfl
  · rw [hafter.transferId, hafter.height]
    unfold ImageTransfer.storeBand
    dsimp only
    split
    · rw [h.complete, hstarted.transferId, hstarted.height]
    · simp only [decide_eq_true_eq, ne_eq, reduceCtorEq, not_false_eq_true, true_and]
      rw [((List.perm_insertionSort _ _).map ImageTransferBand.rows).sum_eq]

/-- Every row of the image is covered by exactly one band. -/
def CoversOnce (snapshot : ImageTransferSnapshot) : Prop :=
  ∀ row < snapshot.height,
    coverage ImageTransferBand.y ImageTransferBand.rows snapshot.bands row = 1

/-- A complete image covers every row once. -/
def Covered (snapshot : ImageTransferSnapshot) : Prop :=
  snapshot.complete = true → CoversOnce snapshot

/-- A complete image covers every row once exactly if no two of its bands share a row. -/
theorem Kept.covered_iff {transfer : TransferState} (h : Kept transfer)
    (hstarted : transfer.snapshot.transferId ≠ none) :
    Covered transfer.snapshot ↔
      ((transfer.received.map ImageTransferBand.rows).sum = transfer.snapshot.height →
        transfer.received.Pairwise BandsApart) := by
  have hcoverage : ∀ row,
      coverage ImageTransferBand.y ImageTransferBand.rows transfer.snapshot.bands row =
        coverage ImageTransferBand.y ImageTransferBand.rows transfer.received row := by
    intro row
    rw [h.bands]
    exact (List.perm_insertionSort _ _).countP_eq _
  have hrows : ∀ band ∈ transfer.received, 0 < band.rows := fun band hmem => (h.within band hmem).1
  have hbound : ∀ band ∈ transfer.received, band.y + band.rows ≤ transfer.snapshot.height :=
    fun band hmem => (h.within band hmem).2
  unfold Covered CoversOnce
  rw [h.complete]
  simp only [hcoverage]
  constructor
  · intro hcovered hsum
    exact (coverage_eq_one_iff hrows hbound hsum).mp (hcovered ⟨hstarted, hsum⟩)
  · intro hapart hcomplete
    exact (coverage_eq_one_iff hrows hbound hcomplete.2).mpr (hapart hcomplete.2)

section Receiver

variable (inflateRaw : Bytes → ℕ → Option Bytes) (options : ImageTransferOptions)

/-- A datagram and the address it comes from. -/
structure Datagram where
  /-- Its bytes. -/
  frame : Bytes
  /-- Its sender. -/
  address : String

/-- A datagram arrives. -/
def receive (transfer : TransferState) (datagram : Datagram) : TransferState :=
  accept inflateRaw options transfer datagram.frame datagram.address

/-- The band that a datagram brings to a receiver. -/
def bandOf (datagram : Datagram) : Option DecodedBand :=
  if options.role ≠ .b ∨ datagram.address ≠ options.peerIpv6 then none
  else (decodeImageBand inflateRaw datagram.frame).toOption

/-- The bands of the same transfer that a datagram's band joins: those of other first rows. -/
def joined (transfer : TransferState) (band : DecodedBand) : List ImageTransferBand :=
  others (startTransfer transfer band) band

/-- When the band of a datagram and the bands it joins add up to the height, no two of them share
a row. -/
def Fitting (transfer : TransferState) (datagram : Datagram) : Prop :=
  ∀ band, bandOf inflateRaw options datagram = some band →
    ((entryOf band :: joined transfer band).map ImageTransferBand.rows).sum = band.height →
    (entryOf band :: joined transfer band).Pairwise BandsApart

variable {inflateRaw options}

/-- Every band taken from a datagram is valid. -/
theorem bandOf_valid {datagram : Datagram} {band : DecodedBand}
    (h : bandOf inflateRaw options datagram = some band) : band.Valid := by
  unfold bandOf at h
  split at h
  · cases h
  · cases hdecode : decodeImageBand inflateRaw datagram.frame with
    | error message =>
      rw [hdecode] at h
      cases h
    | ok decoded =>
      rw [hdecode] at h
      cases h
      exact decodeImageBand_ok inflateRaw hdecode

/-- A datagram without a band changes nothing. -/
theorem receive_of_none {transfer : TransferState} {datagram : Datagram}
    (h : bandOf inflateRaw options datagram = none) :
    receive inflateRaw options transfer datagram = transfer := by
  unfold bandOf at h
  unfold receive accept
  split at h
  · next hignored => rw [if_pos hignored]
  · next hpeer =>
    rw [if_neg hpeer]
    cases hdecode : decodeImageBand inflateRaw datagram.frame with
    | error message => rfl
    | ok decoded =>
      rw [hdecode] at h
      cases h

/-- The band of a datagram is stored. -/
theorem receive_of_some {transfer : TransferState} {datagram : Datagram} {band : DecodedBand}
    (h : bandOf inflateRaw options datagram = some band) :
    receive inflateRaw options transfer datagram =
      storeBand (startTransfer transfer band) band := by
  unfold bandOf at h
  unfold receive accept
  split at h
  · cases h
  · next hpeer =>
    rw [if_neg hpeer]
    cases hdecode : decodeImageBand inflateRaw datagram.frame with
    | error message =>
      rw [hdecode] at h
      cases h
    | ok decoded =>
      rw [hdecode] at h
      cases h
      rfl

/-- Every datagram keeps one band for each first row. -/
theorem Kept.receive {transfer : TransferState} (h : Kept transfer) (datagram : Datagram) :
    Kept (receive inflateRaw options transfer datagram) := by
  cases hband : bandOf inflateRaw options datagram with
  | none =>
    rw [receive_of_none hband]
    exact h
  | some band =>
    have hvalid := bandOf_valid hband
    rw [receive_of_some hband]
    exact (h.startTransfer hvalid).storeBand hvalid (started_startTransfer transfer band)

/-- After a datagram the image is as claimed exactly if its band fits those it joins. -/
theorem covered_receive_iff {transfer : TransferState} (h : Kept transfer)
    (hcovered : Covered transfer.snapshot) (datagram : Datagram) :
    Covered (receive inflateRaw options transfer datagram).snapshot ↔
      Fitting inflateRaw options transfer datagram := by
  cases hband : bandOf inflateRaw options datagram with
  | none =>
    rw [receive_of_none hband]
    refine ⟨fun _ band hsome => ?_, fun _ => hcovered⟩
    rw [hband] at hsome
    cases hsome
  | some band =>
    have hvalid := bandOf_valid hband
    have hstarted := started_startTransfer transfer band
    have hkept := h.startTransfer hvalid
    have hafter := hstarted.storeBand
    have hperm := storeBand_perm hkept band
    have hnone : (storeBand (startTransfer transfer band) band).snapshot.transferId ≠ none := by
      rw [hafter.transferId]
      exact Option.some_ne_none _
    rw [receive_of_some hband, (hkept.storeBand hvalid hstarted).covered_iff hnone, hafter.height,
      (hperm.map ImageTransferBand.rows).sum_eq, hperm.pairwise_iff (fun hapart => hapart.symm)]
    constructor
    · intro hfits other hother
      rw [hband] at hother
      cases hother
      exact hfits
    · intro hfits
      exact hfits band hband

/-- In every run of the receiver, complete images cover every row of the image exactly once in
all states reached if and only if every band fits the bands it joins: when their rows add up to
the height, no two of them share one. -/
theorem complete_covers_iff (inflateRaw : Bytes → ℕ → Option Bytes)
    (options : ImageTransferOptions) (datagrams : List Datagram) :
    (∀ front back, datagrams = front ++ back →
      Covered (run (receive inflateRaw options) createImageTransfer front).snapshot) ↔
    Along (receive inflateRaw options) (Fitting inflateRaw options) createImageTransfer
      datagrams := by
  have hgeneral : ∀ transfer, Kept transfer → Covered transfer.snapshot →
      ((∀ front back, datagrams = front ++ back →
        Covered (run (receive inflateRaw options) transfer front).snapshot) ↔
      Along (receive inflateRaw options) (Fitting inflateRaw options) transfer datagrams) := by
    induction datagrams with
    | nil =>
      intro transfer hkept hcovered
      refine ⟨fun _ => trivial, fun _ front back hsplit => ?_⟩
      rw [(List.append_eq_nil_iff.mp hsplit.symm).1]
      exact hcovered
    | cons datagram datagrams ih =>
      intro transfer hkept hcovered
      have hstep : Covered (receive inflateRaw options transfer datagram).snapshot ↔
          Fitting inflateRaw options transfer datagram :=
        covered_receive_iff hkept hcovered datagram
      constructor
      · intro hall
        have hnext := hall [datagram] datagrams rfl
        refine ⟨hstep.mp hnext, (ih _ (hkept.receive datagram) hnext).mp ?_⟩
        intro front back hsplit
        exact hall (datagram :: front) back (by rw [hsplit, List.cons_append])
      · rintro ⟨hfits, hrest⟩ front back hsplit
        have hnext := hstep.mpr hfits
        cases front with
        | nil => exact hcovered
        | cons first front =>
          rw [List.cons_append, List.cons.injEq] at hsplit
          obtain ⟨rfl, hsplit⟩ := hsplit
          exact (ih _ (hkept.receive datagram) hnext).mpr hrest front back hsplit
  refine hgeneral createImageTransfer kept_createImageTransfer ?_
  intro hcomplete
  cases hcomplete

end Receiver

/-- Raw inflate of a stream of one stored block. -/
def inflateStored (payload : Bytes) (maximum : ℕ) : Option Bytes :=
  let data := payload.drop 5
  if wordAt payload 0 1 = 1 ∧ wordAt payload 1 2 = data.length ∧
      wordAt payload 3 2 = 0xffff - data.length ∧ data.length ≤ maximum then some data
  else none

/-- A stream of one stored block. -/
def storedBlock (data : Bytes) : Bytes :=
  [1] ++ writeWord 2 data.length ++ writeWord 2 (0xffff - data.length) ++ data

/-- A receiver. -/
def benchReceiver : ImageTransferOptions := ⟨.b, "fd00::1"⟩

/-- A datagram of one pixel a row in an image of three rows. -/
def benchDatagram (y rows : ℕ) : Datagram :=
  ⟨frameOf ⟨List.replicate 8 7, 1, 3, y, rows, List.replicate (rows * 4) 9⟩
    (storedBlock (List.replicate (rows * 4) 9)), "fd00::1"⟩

/-- Rows 0 and 1, then row 1 again: complete, without row 2. -/
theorem not_covered_overlap :
    ¬∀ datagrams : List Datagram,
      Covered (run (receive inflateStored benchReceiver) createImageTransfer datagrams).snapshot := by
  intro hall
  have hcovered := hall [benchDatagram 0 2, benchDatagram 1 1]
  have hcomplete : (run (receive inflateStored benchReceiver) createImageTransfer
      [benchDatagram 0 2, benchDatagram 1 1]).snapshot.complete = true := by
    decide +kernel
  have hmissed : ¬CoversOnce (run (receive inflateStored benchReceiver) createImageTransfer
      [benchDatagram 0 2, benchDatagram 1 1]).snapshot := by
    intro honce
    have hlast : coverage ImageTransferBand.y ImageTransferBand.rows
        (run (receive inflateStored benchReceiver) createImageTransfer
          [benchDatagram 0 2, benchDatagram 1 1]).snapshot.bands 2 = 1 := honce 2 (by decide +kernel)
    revert hlast
    decide +kernel
  exact hmissed (hcovered hcomplete)

end Fipwave.ImageCoverage
