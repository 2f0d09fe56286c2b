import Fipwave.AcousticProtocol
import Fipwave.ThrowingMethod

/-!
# Packets as DATA fragments

A packet is cut into consecutive chunks of the committed payload size, one
DATA unit each. Reassembly accepts the fragments in any order, checks their
geometry and concatenates their bodies by index.
-/

namespace Fipwave.PacketFragments

open ByteWords ScriptIntegers ThrowingMethod AcousticProtocol

/-- The arguments of `fragmentPacket`. -/
structure FragmentPacketInput where
  /-- Bytes to be cut. -/
  packet : Bytes
  /-- Session of the fragments. -/
  sessionId : ℕ
  /-- Transmission counter of the first fragment. -/
  sequenceStart : ℕ
  /-- Identifier all fragments share. -/
  packetId : ℕ
  /-- Sender flag of the fragments. -/
  sender : ℕ
  /-- Directional body bound. -/
  payloadBytes : ℕ
  deriving DecidableEq, Repr

/-- The bytes of one fragment. -/
def chunk (packet : Bytes) (payloadBytes index : ℕ) : Bytes :=
  (packet.drop (index * payloadBytes)).take payloadBytes

/-- One DATA unit of a packet. -/
def fragmentAt (input : FragmentPacketInput) (index : ℕ) : Fas1Unit :=
  { type := .data, flags := input.sender, sessionId := input.sessionId,
    sequence := input.sequenceStart + index, packetId := input.packetId, fragmentIndex := index,
    fragmentCount := ceilDivide input.packet.length input.payloadBytes,
    packetLength := input.packet.length, body := chunk input.packet input.payloadBytes index }

/-- Cut a packet into DATA units. -/
def fragmentPacket (input : FragmentPacketInput) : Except String (List Fas1Unit) :=
  if input.packet.length < 1 ∨ input.packet.length > fas1MaxPacketBytes then
    fail "packet length is invalid"
  else do
    assertSessionId input.sessionId
    if input.sessionId = 0 then fail "packet requires an active session"
    else
      assertInteger input.sequenceStart uint32Max "sequence start"
      assertInteger input.packetId uint32Max "packet ID"
      if input.packetId = 0 then fail "packet requires a packet ID"
      else
        assertInteger input.payloadBytes fas1MaxBodyBytes "payload bytes"
        if input.payloadBytes < 1 then fail "payload bytes are invalid"
        else
          let fragmentCount := ceilDivide input.packet.length input.payloadBytes
          if fragmentCount < 1 ∨ fragmentCount > fas1MaxFragments then
            fail "fragment count is invalid"
          else if input.sequenceStart + (fragmentCount - 1) > uint32Max then
            fail "sequence range overflows"
          else .ok ((List.range fragmentCount).map (fragmentAt input))

/-- What a packet that is cut satisfies. -/
structure FragmentPacketInput.Admissible (input : FragmentPacketInput) : Prop where
  /-- A packet within bounds. -/
  packet : 1 ≤ input.packet.length ∧ input.packet.length ≤ fas1MaxPacketBytes
  /-- An active session. -/
  sessionId : input.sessionId ≠ 0 ∧ input.sessionId ≤ uint64Max
  /-- A packet identifier. -/
  packetId : input.packetId ≠ 0 ∧ input.packetId ≤ uint32Max
  /-- A payload that fits one body. -/
  payloadBytes : 1 ≤ input.payloadBytes ∧ input.payloadBytes ≤ fas1MaxBodyBytes
  /-- At most sixteen fragments. -/
  count : 1 ≤ ceilDivide input.packet.length input.payloadBytes ∧
    ceilDivide input.packet.length input.payloadBytes ≤ fas1MaxFragments
  /-- Transmission counters that fit. -/
  sequence : input.sequenceStart + (ceilDivide input.packet.length input.payloadBytes - 1) ≤
    uint32Max

/-- Cutting succeeds only on admissible packets, with one unit for each chunk. -/
theorem fragmentPacket_ok {input : FragmentPacketInput} {fragments : List Fas1Unit}
    (h : fragmentPacket input = .ok fragments) :
    input.Admissible ∧ fragments =
      (List.range (ceilDivide input.packet.length input.payloadBytes)).map (fragmentAt input) := by
  unfold fragmentPacket assertSessionId assertInteger at h
  simp only [check_bind_ok_iff, check_ok_iff, not_or, not_lt, gt_iff_lt] at h
  obtain ⟨hp, hs1, hs2, _, hi1, hi2, hb1, hb2, hc, hq, hf⟩ := h
  exact ⟨⟨hp, ⟨hs2, hs1⟩, ⟨hi2, hi1⟩, ⟨hb2, hb1⟩, hc, hq⟩, (Except.ok.inj hf).symm⟩

/-- The body length a fragment of the geometry has. -/
def expectedLength (packetLength payloadBytes expectedCount index : ℕ) : ℕ :=
  if index + 1 = expectedCount then packetLength - payloadBytes * (expectedCount - 1)
  else payloadBytes

/-- Check one fragment against the first and add it to those seen. -/
def indexFragment (first : Fas1Unit) (payloadBytes expectedCount : ℕ) (byIndex : List Fas1Unit)
    (fragment : Fas1Unit) : Except String (List Fas1Unit) := do
  validateUnit fragment
  if fragment.type ≠ .data ∨ fragment.sessionId ≠ first.sessionId ∨
      fragment.packetId ≠ first.packetId ∨ fragment.packetLength ≠ first.packetLength ∨
      fragment.fragmentCount ≠ first.fragmentCount then
    fail "fragment collection does not match"
  else if fragment.body.length ≠
      expectedLength first.packetLength payloadBytes expectedCount fragment.fragmentIndex then
    fail "fragment collection body geometry is invalid"
  else if byIndex.any (fun other => other.fragmentIndex = fragment.fragmentIndex) then
    fail "fragment collection has a duplicate index"
  else .ok (byIndex ++ [fragment])

/-- Copy the body of one index behind what is already copied. -/
def joinFragment (first : Fas1Unit) (byIndex : List Fas1Unit) (output : Bytes) (index : ℕ) :
    Except String Bytes :=
  match byIndex.find? (fun fragment => fragment.fragmentIndex = index) with
  | none => fail "fragment collection is incomplete or overflows"
  | some fragment =>
    if fragment.body.length > first.packetLength - output.length then
      fail "fragment collection is incomplete or overflows"
    else .ok (output ++ fragment.body)

/-- Put the fragments of one packet together. -/
def reassemblePacket (fragments : List Fas1Unit) (payloadBytes : ℕ) : Except String Bytes :=
  match fragments with
  | [] => fail "fragment collection is invalid"
  | first :: _ =>
    if fragments.length > fas1MaxFragments then fail "fragment collection is invalid"
    else do
      assertInteger payloadBytes fas1MaxBodyBytes "payload bytes"
      if payloadBytes < 1 then fail "payload bytes are invalid"
      else
        validateUnit first
        let expectedCount := ceilDivide first.packetLength payloadBytes
        if first.type ≠ .data ∨ first.fragmentCount ≠ fragments.length ∨
            first.fragmentCount ≠ expectedCount then
          fail "fragment collection geometry is invalid"
        else
          let byIndex ← fragments.foldlM (indexFragment first payloadBytes expectedCount) []
          let output ← (List.range first.fragmentCount).foldlM (joinFragment first byIndex) []
          if output.length ≠ first.packetLength then
            fail "fragment collection declared length is invalid"
          else .ok output

/-- A packet of positive length fills all its chunks but the last. -/
theorem ceilDivide_bounds {dividend divisor : ℕ} (hdividend : 1 ≤ dividend) (hdivisor : 1 ≤ divisor) :
    1 ≤ ceilDivide dividend divisor ∧ dividend ≤ divisor * ceilDivide dividend divisor ∧
      divisor * (ceilDivide dividend divisor - 1) < dividend := by
  unfold ceilDivide
  have hdiv := Nat.div_add_mod (dividend + divisor - 1) divisor
  have hmod := Nat.mod_lt (dividend + divisor - 1) hdivisor
  generalize (dividend + divisor - 1) / divisor = quotient at *
  have hpos : 1 ≤ quotient := by
    by_contra hzero
    have : quotient = 0 := by omega
    rw [this, Nat.mul_zero] at hdiv
    omega
  have hsub : divisor * (quotient - 1) = divisor * quotient - divisor := by
    rw [Nat.mul_sub, Nat.mul_one]
  refine ⟨hpos, by omega, ?_⟩
  have hle : divisor ≤ divisor * quotient := Nat.le_mul_of_pos_right _ hpos
  omega

/-- Consecutive chunks put together are a leading part of the packet. -/
theorem flatMap_chunk (packet : Bytes) (payloadBytes count : ℕ) :
    (List.range count).flatMap (chunk packet payloadBytes) = packet.take (count * payloadBytes) := by
  induction count with
  | zero => simp
  | succ count ih =>
    rw [List.range_succ, List.flatMap_append, ih, Nat.succ_mul, List.take_add]
    simp [chunk]

/-- Pieces of one size, the last of which may be shorter, are the chunks of what
they make up. -/
theorem chunk_flatMap {piece : ℕ → Bytes} {payloadBytes count : ℕ}
    (hfull : ∀ index, index + 1 < count → (piece index).length = payloadBytes)
    (hlast : ∀ index, index < count → (piece index).length ≤ payloadBytes)
    {index : ℕ} (hindex : index < count) :
    chunk ((List.range count).flatMap piece) payloadBytes index = piece index := by
  have hfront : ∀ n, n < count →
      ((List.range n).flatMap piece).length = n * payloadBytes := by
    intro n hn
    induction n with
    | zero => simp
    | succ n ih =>
      rw [List.range_succ, List.flatMap_append, List.length_append, ih (by omega)]
      simp [hfull n hn, Nat.succ_mul]
  have hsplit : List.range count =
      List.range index ++ (index :: (List.range (count - index - 1)).map (index + 1 + ·)) := by
    conv_lhs => rw [show count = index + (1 + (count - index - 1)) by omega]
    rw [List.range_add, List.range_add]
    simp [Nat.add_assoc]
  rw [hsplit, List.flatMap_append, List.flatMap_cons, chunk, ← hfront index hindex,
    List.drop_left]
  by_cases hend : index + 1 < count
  · rw [← hfull index hend, List.take_left]
  · have hzero : count - index - 1 = 0 := by omega
    rw [hzero]
    simp [List.take_of_length_le (hlast index hindex)]

/-- The shape all fragments of one packet share. -/
structure PacketShape where
  /-- Session of the fragments. -/
  sessionId : ℕ
  /-- Identifier of the packet. -/
  packetId : ℕ
  /-- Length of the packet. -/
  packetLength : ℕ
  /-- Payload size it is cut with. -/
  payloadBytes : ℕ

/-- Number of fragments of a shape. -/
def PacketShape.count (shape : PacketShape) : ℕ := ceilDivide shape.packetLength shape.payloadBytes

/-- A fragment of a shape. -/
structure PacketShape.Fits (shape : PacketShape) (fragment : Fas1Unit) : Prop where
  /-- It can be encoded. -/
  wellFormed : fragment.WellFormed
  /-- It is a fragment. -/
  type : fragment.type = .data
  /-- Its session. -/
  sessionId : fragment.sessionId = shape.sessionId
  /-- Its packet. -/
  packetId : fragment.packetId = shape.packetId
  /-- Its declared length. -/
  packetLength : fragment.packetLength = shape.packetLength
  /-- Its declared number of fragments. -/
  fragmentCount : fragment.fragmentCount = shape.count
  /-- Its share of the packet. -/
  length : fragment.body.length =
    expectedLength shape.packetLength shape.payloadBytes shape.count fragment.fragmentIndex

section Reassembly

variable {shape : PacketShape} {fragments : List Fas1Unit}

/-- The bounds a fragment of a shape implies for the shape. -/
theorem PacketShape.Fits.bounds {fragment : Fas1Unit} (h : shape.Fits fragment) :
    1 ≤ shape.packetLength ∧ 1 ≤ shape.count ∧ shape.count ≤ fas1MaxFragments ∧
      fragment.fragmentIndex < shape.count := by
  have hdata := h.wellFormed.data h.type
  simp only [validateData, check_ok_iff, not_or, not_lt, ge_iff_le, not_le] at hdata
  obtain ⟨-, -, hcount, hindex, hlength, -⟩ := hdata
  rw [h.fragmentCount] at hcount hindex
  rw [h.packetLength] at hlength
  exact ⟨hlength.1, hcount.1, hcount.2, hindex⟩

/-- The body of the fragment of an index. -/
def bodyAt (fragments : List Fas1Unit) (index : ℕ) : Bytes :=
  match fragments.find? (fun fragment => fragment.fragmentIndex = index) with
  | none => []
  | some fragment => fragment.body

/-- The bodies of the leading indices put together. -/
def joined (fragments : List Fas1Unit) (count : ℕ) : Bytes :=
  (List.range count).flatMap (bodyAt fragments)

/-- Fragments of one shape with different indices pass every check of the index. -/
theorem foldlM_indexFragment {first : Fas1Unit} (hfirst : shape.Fits first)
    {seen : List Fas1Unit} (hfits : ∀ fragment ∈ fragments, shape.Fits fragment)
    (hnodup : ((seen ++ fragments).map (·.fragmentIndex)).Nodup) :
    fragments.foldlM (indexFragment first shape.payloadBytes shape.count) seen =
      .ok (seen ++ fragments) := by
  induction fragments generalizing seen with
  | nil => simp [pure, Except.pure]
  | cons fragment fragments ih =>
    have hfit := hfits fragment (List.mem_cons_self)
    have hvalid := (validateUnit_ok_iff fragment).mpr hfit.wellFormed
    have hnew : ¬seen.any (fun other => other.fragmentIndex = fragment.fragmentIndex) := by
      simp only [List.any_eq_true, decide_eq_true_eq, not_exists, not_and]
      intro other hmem heq
      rw [List.map_append, List.nodup_append] at hnodup
      exact hnodup.2.2 _ (List.mem_map_of_mem hmem) _ (List.mem_map_of_mem (List.mem_cons_self)) heq
    have hstep : indexFragment first shape.payloadBytes shape.count seen fragment =
        .ok (seen ++ [fragment]) := by
      unfold indexFragment
      rw [hvalid, ok_bind, if_neg, if_neg, if_neg hnew]
      · simp [hfit.length, hfirst.packetLength]
      · simp [hfit.type, hfit.sessionId, hfirst.sessionId, hfit.packetId, hfirst.packetId,
          hfit.packetLength, hfirst.packetLength, hfit.fragmentCount, hfirst.fragmentCount]
    rw [List.foldlM_cons, hstep, ok_bind, ih (fun f hf => hfits f (List.mem_cons_of_mem _ hf))
      (by simpa using hnodup), List.append_assoc]
    rfl

/-- As many different indices as there are fragments leave none out. -/
theorem exists_of_index_lt (hfits : ∀ fragment ∈ fragments, shape.Fits fragment)
    (hnodup : (fragments.map (·.fragmentIndex)).Nodup) (hlength : fragments.length = shape.count)
    {index : ℕ} (hindex : index < shape.count) :
    ∃ fragment ∈ fragments, fragment.fragmentIndex = index := by
  have hsubset : (fragments.map (·.fragmentIndex)).toFinset ⊆ Finset.range shape.count := by
    intro i hi
    rw [List.mem_toFinset, List.mem_map] at hi
    obtain ⟨fragment, hmem, rfl⟩ := hi
    exact Finset.mem_range.mpr (hfits fragment hmem).bounds.2.2.2
  have hcard : (fragments.map (·.fragmentIndex)).toFinset.card = shape.count := by
    rw [List.toFinset_card_of_nodup hnodup, List.length_map, hlength]
  have heq := Finset.eq_of_subset_of_card_le hsubset (by rw [hcard, Finset.card_range])
  have hmem : index ∈ (fragments.map (·.fragmentIndex)).toFinset := by
    rw [heq]
    exact Finset.mem_range.mpr hindex
  rw [List.mem_toFinset, List.mem_map] at hmem
  exact hmem

/-- The fragment an index finds is the one that has it. -/
theorem find_of_mem {fragment : Fas1Unit} (hmem : fragment ∈ fragments)
    (hnodup : (fragments.map (·.fragmentIndex)).Nodup) :
    fragments.find? (fun other => other.fragmentIndex = fragment.fragmentIndex) = some fragment := by
  induction fragments with
  | nil => cases hmem
  | cons head fragments ih =>
    rw [List.map_cons, List.nodup_cons] at hnodup
    rcases List.mem_cons.mp hmem with rfl | hmem
    · simp
    · have hne : head.fragmentIndex ≠ fragment.fragmentIndex := by
        intro heq
        exact hnodup.1 (heq ▸ List.mem_map_of_mem hmem)
      rw [List.find?_cons_of_neg (by simpa using hne), ih hmem hnodup.2]

/-- The body found under a fragment's index is that fragment's. -/
theorem bodyAt_of_mem {fragment : Fas1Unit} (hmem : fragment ∈ fragments)
    (hnodup : (fragments.map (·.fragmentIndex)).Nodup) :
    bodyAt fragments fragment.fragmentIndex = fragment.body := by
  rw [bodyAt, find_of_mem hmem hnodup]

/-- The body of each index has its share of the packet. -/
theorem bodyAt_length (hfits : ∀ fragment ∈ fragments, shape.Fits fragment)
    (hnodup : (fragments.map (·.fragmentIndex)).Nodup) (hlength : fragments.length = shape.count)
    {index : ℕ} (hindex : index < shape.count) :
    (bodyAt fragments index).length =
      expectedLength shape.packetLength shape.payloadBytes shape.count index := by
  obtain ⟨fragment, hmem, rfl⟩ := exists_of_index_lt hfits hnodup hlength hindex
  rw [bodyAt_of_mem hmem hnodup, (hfits fragment hmem).length]

/-- The leading bodies together are as long as their number tells. -/
theorem joined_length (hfits : ∀ fragment ∈ fragments, shape.Fits fragment)
    (hnodup : (fragments.map (·.fragmentIndex)).Nodup) (hlength : fragments.length = shape.count)
    {count : ℕ} (hcount : count < shape.count) :
    (joined fragments count).length = shape.payloadBytes * count := by
  induction count with
  | zero => simp [joined]
  | succ count ih =>
    have hbody := bodyAt_length hfits hnodup hlength (show count < shape.count by omega)
    rw [expectedLength, if_neg (by omega)] at hbody
    have hprev := ih (by omega)
    simp only [joined] at hprev ⊢
    rw [List.range_succ, List.flatMap_append, List.length_append, hprev]
    simp [hbody, Nat.mul_succ]

/-- All bodies together have the declared length. -/
theorem joined_length_all (hpayload : 1 ≤ shape.payloadBytes) (hlong : 1 ≤ shape.packetLength)
    (hfits : ∀ fragment ∈ fragments, shape.Fits fragment)
    (hnodup : (fragments.map (·.fragmentIndex)).Nodup) (hlength : fragments.length = shape.count) :
    (joined fragments shape.count).length = shape.packetLength := by
  obtain ⟨hpos, -, hlast⟩ := ceilDivide_bounds hlong hpayload
  change 1 ≤ shape.count at hpos
  change shape.payloadBytes * (shape.count - 1) < shape.packetLength at hlast
  have hfront := joined_length hfits hnodup hlength (show shape.count - 1 < shape.count by omega)
  have hbody := bodyAt_length hfits hnodup hlength (show shape.count - 1 < shape.count by omega)
  rw [expectedLength, if_pos (by omega)] at hbody
  have hsplit : joined fragments shape.count =
      joined fragments (shape.count - 1) ++ bodyAt fragments (shape.count - 1) := by
    unfold joined
    conv_lhs => rw [show shape.count = shape.count - 1 + 1 by omega, List.range_succ]
    simp
  rw [hsplit, List.length_append, hfront, hbody]
  omega

/-- The bodies are copied index by index. -/
theorem foldlM_joinFragment {first : Fas1Unit} (hfirst : shape.Fits first)
    (hpayload : 1 ≤ shape.payloadBytes)
    (hfits : ∀ fragment ∈ fragments, shape.Fits fragment)
    (hnodup : (fragments.map (·.fragmentIndex)).Nodup) (hlength : fragments.length = shape.count)
    {count : ℕ} (hcount : count ≤ shape.count) :
    (List.range count).foldlM (joinFragment first fragments) [] = .ok (joined fragments count) := by
  induction count with
  | zero => rfl
  | succ count ih =>
    have hall := joined_length_all hpayload hfirst.bounds.1 hfits hnodup hlength
    have hgrow : joined fragments (count + 1) =
        joined fragments count ++ bodyAt fragments count := by
      unfold joined
      rw [List.range_succ, List.flatMap_append]
      simp
    have hbound : (joined fragments (count + 1)).length ≤ shape.packetLength := by
      rw [← hall]
      unfold joined
      obtain ⟨rest, hrest⟩ : ∃ rest, List.range shape.count = List.range (count + 1) ++ rest :=
        ⟨_, by rw [← List.range_add, Nat.add_sub_cancel' hcount]⟩
      rw [hrest, List.flatMap_append, List.length_append]
      exact Nat.le_add_right _ _
    obtain ⟨fragment, hmem, hindex⟩ := exists_of_index_lt hfits hnodup hlength
      (show count < shape.count by omega)
    have hbody := bodyAt_of_mem hmem hnodup
    have hfind := find_of_mem hmem hnodup
    rw [hindex] at hbody hfind
    rw [List.range_succ, List.foldlM_append, ih (by omega), ok_bind]
    have hstep : joinFragment first fragments (joined fragments count) count =
        .ok (joined fragments (count + 1)) := by
      unfold joinFragment
      rw [hgrow, hbody] at hbound
      rw [List.length_append] at hbound
      rw [hfind, hgrow, hbody, hfirst.packetLength]
      exact if_neg (by omega)
    simp only [List.foldlM_cons, List.foldlM_nil, hstep]
    rfl

/-- A complete collection of one shape is put together, with the declared length. -/
theorem reassemblePacket_complete
    (hpayload : 1 ≤ shape.payloadBytes ∧ shape.payloadBytes ≤ fas1MaxBodyBytes)
    (hfits : ∀ fragment ∈ fragments, shape.Fits fragment)
    (hnodup : (fragments.map (·.fragmentIndex)).Nodup) (hlength : fragments.length = shape.count)
    (hne : fragments ≠ []) :
    reassemblePacket fragments shape.payloadBytes = .ok (joined fragments shape.count) ∧
      (joined fragments shape.count).length = shape.packetLength := by
  cases hfragments : fragments with
  | nil => exact absurd hfragments hne
  | cons first rest =>
    rw [← hfragments]
    have hfirst := hfits first (by simp [hfragments])
    obtain ⟨hlong, hcountpos, hcountmax, -⟩ := hfirst.bounds
    have hjoined := joined_length_all hpayload.1 hlong hfits hnodup hlength
    refine ⟨?_, hjoined⟩
    have hindexed : fragments.foldlM (indexFragment first shape.payloadBytes shape.count) [] =
        .ok fragments := foldlM_indexFragment hfirst hfits (by simpa using hnodup)
    have hcopied := foldlM_joinFragment hfirst hpayload.1 hfits hnodup hlength (le_refl _)
    have hexpected : ceilDivide first.packetLength shape.payloadBytes = shape.count := by
      rw [hfirst.packetLength]
      rfl
    unfold reassemblePacket
    rw [hfragments]
    dsimp only
    rw [← hfragments, if_neg (by omega), assertInteger, if_neg (by omega), ok_bind,
      if_neg (by omega), (validateUnit_ok_iff first).mpr hfirst.wellFormed, ok_bind, hexpected,
      if_neg (by simp [hfirst.type, hfirst.fragmentCount, hlength]), hindexed, ok_bind,
      hfirst.fragmentCount, hcopied, ok_bind, hfirst.packetLength, if_neg (by simp [hjoined])]

/-- A complete collection makes up a packet exactly when every body is its chunk. -/
theorem joined_eq_iff {packet : Bytes} (hpacket : packet.length = shape.packetLength)
    (hpayload : 1 ≤ shape.payloadBytes) (hlong : 1 ≤ shape.packetLength)
    (hfits : ∀ fragment ∈ fragments, shape.Fits fragment)
    (hnodup : (fragments.map (·.fragmentIndex)).Nodup) (hlength : fragments.length = shape.count) :
    joined fragments shape.count = packet ↔
      ∀ fragment ∈ fragments, fragment.body =
        chunk packet shape.payloadBytes fragment.fragmentIndex := by
  obtain ⟨-, hcover, hlast⟩ := ceilDivide_bounds hlong hpayload
  change shape.packetLength ≤ shape.payloadBytes * shape.count at hcover
  change shape.payloadBytes * (shape.count - 1) < shape.packetLength at hlast
  constructor
  · intro hjoined fragment hmem
    rw [← bodyAt_of_mem hmem hnodup, ← hjoined]
    refine (chunk_flatMap ?_ ?_ (hfits fragment hmem).bounds.2.2.2).symm
    · intro index hindex
      rw [bodyAt_length hfits hnodup hlength (by omega), expectedLength, if_neg (by omega)]
    · intro index hindex
      rw [bodyAt_length hfits hnodup hlength hindex, expectedLength]
      split
      · have hsplit : shape.payloadBytes * shape.count =
            shape.payloadBytes * (shape.count - 1) + shape.payloadBytes := by
          conv_lhs => rw [show shape.count = shape.count - 1 + 1 by omega, Nat.mul_succ]
        omega
      · exact le_refl _
  · intro hbodies
    have hpieces : joined fragments shape.count =
        (List.range shape.count).flatMap (chunk packet shape.payloadBytes) := by
      refine List.flatMap_congr ?_
      intro index hindex
      obtain ⟨fragment, hmem, rfl⟩ := exists_of_index_lt hfits hnodup hlength
        (List.mem_range.mp hindex)
      rw [bodyAt_of_mem hmem hnodup, hbodies fragment hmem]
    rw [hpieces, flatMap_chunk, List.take_of_length_le]
    rw [hpacket, Nat.mul_comm]
    exact hcover

end Reassembly

/-- The shape of the fragments of a packet. -/
def FragmentPacketInput.shape (input : FragmentPacketInput) : PacketShape :=
  ⟨input.sessionId, input.packetId, input.packet.length, input.payloadBytes⟩

/-- Each chunk of a packet has its share. -/
theorem chunk_length {packet : Bytes} {payloadBytes index : ℕ} (hpayload : 1 ≤ payloadBytes)
    (hlong : 1 ≤ packet.length) (hindex : index < ceilDivide packet.length payloadBytes) :
    (chunk packet payloadBytes index).length =
      expectedLength packet.length payloadBytes (ceilDivide packet.length payloadBytes) index := by
  obtain ⟨-, hcover, hlast⟩ := ceilDivide_bounds hlong hpayload
  generalize ceilDivide packet.length payloadBytes = count at *
  rw [chunk, List.length_take, List.length_drop, expectedLength, Nat.mul_comm index]
  split
  · next hend =>
    have hsplit : payloadBytes * count = payloadBytes * (count - 1) + payloadBytes := by
      conv_lhs => rw [show count = count - 1 + 1 by omega, Nat.mul_succ]
    rw [show index = count - 1 by omega]
    omega
  · have hle : payloadBytes * (index + 1) ≤ payloadBytes * (count - 1) :=
      Nat.mul_le_mul_left _ (by omega)
    rw [Nat.mul_succ] at hle
    omega

/-- Every unit of a cut packet fits its shape. -/
theorem fragmentAt_fits {input : FragmentPacketInput} (h : input.Admissible)
    (hsender : input.sender = fas1SenderA ∨ input.sender = fas1SenderB) {index : ℕ}
    (hindex : index < ceilDivide input.packet.length input.payloadBytes) :
    input.shape.Fits (fragmentAt input index) := by
  have hlength := chunk_length h.payloadBytes.1 h.packet.1 hindex
  obtain ⟨-, hcover, hlast⟩ := ceilDivide_bounds h.packet.1 h.payloadBytes.1
  have hbound : 1 ≤ (chunk input.packet input.payloadBytes index).length ∧
      (chunk input.packet input.payloadBytes index).length ≤ input.payloadBytes ∧
      (chunk input.packet input.payloadBytes index).length ≤ input.packet.length := by
    refine ⟨?_, by simp [chunk], by simp [chunk]⟩
    rw [hlength, expectedLength]
    split
    · omega
    · exact h.payloadBytes.1
  have hpacket : fas1MaxPacketBytes = 1357 := rfl
  have hbody : fas1MaxBodyBytes = 217 := rfl
  have hfragments : fas1MaxFragments = 16 := rfl
  have hp := h.packet
  have hc := h.count
  have hs := h.sequence
  have hpayload := h.payloadBytes
  refine ⟨⟨hsender, h.sessionId.2, ?_, h.packetId.2, ?_, ?_, ?_, ?_, ?_, by simp [fragmentAt]⟩,
    rfl, rfl, rfl, rfl, rfl, hlength⟩
  · simp only [fragmentAt]
    omega
  · simp only [fragmentAt]
    omega
  · simp only [fragmentAt]
    omega
  · simp only [fragmentAt]
    omega
  · simp only [fragmentAt]
    omega
  · intro _
    simp only [validateData, check_ok_iff]
    dsimp only [fragmentAt]
    refine ⟨h.sessionId.1, h.packetId.1, ?_, ?_, ?_, ?_, ?_, trivial⟩ <;> omega

end Fipwave.PacketFragments
