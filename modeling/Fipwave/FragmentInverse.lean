import Fipwave.PacketFragments

/-!
# Cutting a packet and putting it together are inverse

The fragments of a packet give the packet back in any order. A collection that
is put together is, apart from its order, its transmission counters and its
sender flags, what cutting the resulting packet gives.
-/

namespace Fipwave.FragmentInverse

open ByteWords ScriptIntegers ThrowingMethod AcousticProtocol PacketFragments

/-- The shape a collection has to fit, read off one of its units. -/
def shapeOf (first : Fas1Unit) (payloadBytes : ℕ) : PacketShape :=
  ⟨first.sessionId, first.packetId, first.packetLength, payloadBytes⟩

/-- What a fragment that is added to those seen satisfies. -/
theorem fits_of_indexFragment {first fragment : Fas1Unit} {payloadBytes : ℕ}
    {byIndex result : List Fas1Unit}
    (hcount : first.fragmentCount = (shapeOf first payloadBytes).count)
    (h : indexFragment first payloadBytes (shapeOf first payloadBytes).count byIndex fragment =
      .ok result) :
    (shapeOf first payloadBytes).Fits fragment ∧
      (∀ other ∈ byIndex, other.fragmentIndex ≠ fragment.fragmentIndex) ∧
      result = byIndex ++ [fragment] := by
  unfold indexFragment at h
  obtain ⟨_, hvalid, h⟩ := bind_ok h
  simp only [check_ok_iff, not_or, not_not] at h
  obtain ⟨⟨htype, hsession, hpacket, hlength, hfragments⟩, hbody, hnew, hresult⟩ := h
  have hwellFormed := (validateUnit_ok_iff fragment).mp hvalid
  refine ⟨⟨hwellFormed, htype, hsession, hpacket, hlength, hfragments.trans hcount, hbody⟩, ?_,
    (Except.ok.inj hresult).symm⟩
  intro other hmem heq
  apply hnew
  rw [List.any_eq_true]
  exact ⟨other, hmem, decide_eq_true heq⟩

/-- Fragments that pass every check of the index are of one shape and have different indices. -/
theorem fits_of_foldlM {first : Fas1Unit} {payloadBytes : ℕ} {fragments byIndex result : List Fas1Unit}
    (hcount : first.fragmentCount = (shapeOf first payloadBytes).count)
    (hseen : (byIndex.map (·.fragmentIndex)).Nodup)
    (h : fragments.foldlM (indexFragment first payloadBytes (shapeOf first payloadBytes).count)
      byIndex = .ok result) :
    (∀ fragment ∈ fragments, (shapeOf first payloadBytes).Fits fragment) ∧
      ((byIndex ++ fragments).map (·.fragmentIndex)).Nodup := by
  induction fragments generalizing byIndex with
  | nil =>
    rw [List.append_nil]
    exact ⟨fun fragment hmem => absurd hmem List.not_mem_nil, hseen⟩
  | cons fragment fragments ih =>
    rw [List.foldlM_cons] at h
    obtain ⟨next, hstep, hrest⟩ := bind_ok h
    obtain ⟨hfits, hnew, rfl⟩ := fits_of_indexFragment hcount hstep
    have hnext : ((byIndex ++ [fragment]).map (·.fragmentIndex)).Nodup := by
      rw [List.map_append, List.nodup_append]
      refine ⟨hseen, List.nodup_singleton _, ?_⟩
      intro index hmem other hother
      obtain ⟨seen, hseenMem, rfl⟩ := List.mem_map.mp hmem
      have hother : other = fragment.fragmentIndex := by simpa using hother
      rw [hother]
      exact hnew seen hseenMem
    obtain ⟨hall, hnodup⟩ := ih hnext hrest
    rw [List.append_assoc] at hnodup
    exact ⟨List.forall_mem_cons.mpr ⟨hfits, hall⟩, hnodup⟩

/-- A collection that is complete: every fragment of one shape once. -/
structure Complete (shape : PacketShape) (fragments : List Fas1Unit) : Prop where
  /-- Fragments of the shape. -/
  fits : ∀ fragment ∈ fragments, shape.Fits fragment
  /-- No index comes twice. -/
  nodup : (fragments.map (·.fragmentIndex)).Nodup
  /-- As many as the shape has. -/
  length : fragments.length = shape.count
  /-- There are fragments. -/
  nonempty : fragments ≠ []
  /-- A payload size. -/
  payloadBytes : 1 ≤ shape.payloadBytes ∧ shape.payloadBytes ≤ fas1MaxBodyBytes

/-- A collection that is put together is complete. -/
theorem complete_of_reassemblePacket {fragments : List Fas1Unit} {payloadBytes : ℕ} {packet : Bytes}
    (h : reassemblePacket fragments payloadBytes = .ok packet) :
    ∃ first ∈ fragments, Complete (shapeOf first payloadBytes) fragments := by
  cases fragments with
  | nil => cases h
  | cons first rest =>
    refine ⟨first, List.mem_cons_self, ?_⟩
    unfold reassemblePacket assertInteger at h
    simp only [check_bind_ok_iff, check_ok_iff, not_lt, gt_iff_lt] at h
    obtain ⟨-, hmax, hmin, h⟩ := h
    obtain ⟨-, -, h⟩ := bind_ok h
    simp only [check_ok_iff, not_or, not_not] at h
    obtain ⟨⟨-, hlength, hcount⟩, h⟩ := h
    obtain ⟨byIndex, hindexed, -⟩ := bind_ok h
    have hshape : first.fragmentCount = (shapeOf first payloadBytes).count := hcount
    have hnone : (([] : List Fas1Unit).map (·.fragmentIndex)).Nodup := List.nodup_nil
    obtain ⟨hfits, hnodup⟩ := fits_of_foldlM hshape hnone hindexed
    exact ⟨hfits, hnodup, hlength.symm.trans hshape, List.cons_ne_nil _ _, hmin, hmax⟩

/-- The indices of a complete collection are the indices of its shape. -/
theorem Complete.indices {shape : PacketShape} {fragments : List Fas1Unit}
    (h : Complete shape fragments) :
    (fragments.map (·.fragmentIndex)).Perm (List.range shape.count) := by
  rw [List.perm_ext_iff_of_nodup h.nodup List.nodup_range]
  intro index
  rw [List.mem_map, List.mem_range]
  constructor
  · rintro ⟨fragment, hmem, rfl⟩
    exact (h.fits fragment hmem).bounds.2.2.2
  · exact exists_of_index_lt h.fits h.nodup h.length

/-- A unit without its transmission counter and its sender flag. -/
def unstamped (unit : Fas1Unit) : Fas1Unit := { unit with sequence := 0, flags := 0 }

/-- Fragments in any order give their packet back. -/
theorem reassemblePacket_of_perm {input : FragmentPacketInput} {cut fragments : List Fas1Unit}
    (hsender : input.sender = fas1SenderA ∨ input.sender = fas1SenderB)
    (hcut : fragmentPacket input = .ok cut) (hperm : fragments.Perm cut) :
    reassemblePacket fragments input.payloadBytes = .ok input.packet := by
  obtain ⟨hadmissible, rfl⟩ := fragmentPacket_ok hcut
  have hfits : ∀ fragment ∈ fragments, input.shape.Fits fragment := by
    intro fragment hmem
    obtain ⟨index, hindex, rfl⟩ := List.mem_map.mp (hperm.mem_iff.mp hmem)
    exact fragmentAt_fits hadmissible hsender (List.mem_range.mp hindex)
  have hindices : (fragments.map (·.fragmentIndex)).Perm
      (List.range (ceilDivide input.packet.length input.payloadBytes)) := by
    have hmap := hperm.map (·.fragmentIndex)
    rw [List.map_map] at hmap
    have hself : (fun fragment : Fas1Unit => fragment.fragmentIndex) ∘ fragmentAt input = id := rfl
    rwa [hself, List.map_id] at hmap
  have hnodup := hindices.nodup_iff.mpr List.nodup_range
  have hlength : fragments.length = input.shape.count := by
    have hsame := hindices.length_eq
    rwa [List.length_map, List.length_range] at hsame
  have hpositive : 1 ≤ input.shape.count := hadmissible.count.1
  have hnonempty : fragments ≠ [] := by
    rintro rfl
    rw [List.length_nil] at hlength
    omega
  have hjoined : joined fragments input.shape.count = input.packet := by
    rw [joined_eq_iff rfl hadmissible.payloadBytes.1 hadmissible.packet.1 hfits hnodup hlength]
    intro fragment hmem
    obtain ⟨index, hindex, rfl⟩ := List.mem_map.mp (hperm.mem_iff.mp hmem)
    rfl
  have hcomplete := (reassemblePacket_complete hadmissible.payloadBytes hfits hnodup hlength
    hnonempty).1
  rw [hjoined] at hcomplete
  exact hcomplete

/-- The arguments whose cutting gives a complete collection. -/
def cutting (shape : PacketShape) (packet : Bytes) : FragmentPacketInput :=
  ⟨packet, shape.sessionId, 0, shape.packetId, fas1SenderA, shape.payloadBytes⟩

/-- Every admissible packet is cut. -/
theorem fragmentPacket_of_admissible {input : FragmentPacketInput} (h : input.Admissible) :
    fragmentPacket input = .ok
      ((List.range (ceilDivide input.packet.length input.payloadBytes)).map (fragmentAt input)) := by
  obtain ⟨hpacket, hsession, hid, hpayload, hcount, hsequence⟩ := h
  have hstart : input.sequenceStart ≤ uint32Max := by omega
  unfold fragmentPacket assertSessionId assertInteger
  simp only [check_bind_ok_iff, check_ok_iff, not_or, not_lt, gt_iff_lt]
  exact ⟨hpacket, hsession.2, hsession.1, hstart, hid.2, hid.1, hpayload.2, hpayload.1, hcount,
    hsequence, trivial⟩

/-- A packet of a shape whose units are well formed can be cut. -/
theorem cutting_admissible {shape : PacketShape} {packet : Bytes} {fragment : Fas1Unit}
    (hfits : shape.Fits fragment) (hpacket : packet.length = shape.packetLength)
    (hpayload : 1 ≤ shape.payloadBytes ∧ shape.payloadBytes ≤ fas1MaxBodyBytes) :
    (cutting shape packet).Admissible := by
  have hdata := hfits.wellFormed.data hfits.type
  simp only [validateData, check_ok_iff, not_or, not_lt, ge_iff_le, not_le] at hdata
  obtain ⟨hsession, hid, -, -, hlength, -⟩ := hdata
  obtain ⟨-, hcount, hmax, -⟩ := hfits.bounds
  have hsessionMax := hfits.wellFormed.sessionId
  have hidMax := hfits.wellFormed.packetId
  rw [hfits.sessionId] at hsession hsessionMax
  rw [hfits.packetId] at hid hidMax
  rw [hfits.packetLength] at hlength
  have hceil : ceilDivide packet.length shape.payloadBytes = shape.count := by
    rw [hpacket]
    rfl
  have hfragments : fas1MaxFragments = 16 := rfl
  have huint : uint32Max = 4294967295 := rfl
  refine ⟨?_, ⟨hsession, hsessionMax⟩, ⟨hid, hidMax⟩, hpayload, ?_, ?_⟩
  · rw [← hpacket] at hlength
    exact hlength
  · have hbounds : 1 ≤ ceilDivide packet.length shape.payloadBytes ∧
        ceilDivide packet.length shape.payloadBytes ≤ fas1MaxFragments := by
      omega
    exact hbounds
  · have hbound : 0 + (ceilDivide packet.length shape.payloadBytes - 1) ≤ uint32Max := by omega
    exact hbound

/-- A complete collection is its packet cut, apart from order, counters and sender flags. -/
theorem Complete.perm {shape : PacketShape} {fragments : List Fas1Unit} {packet : Bytes}
    (h : Complete shape fragments) (hpacket : joined fragments shape.count = packet)
    (hlength : packet.length = shape.packetLength) :
    (fragments.map unstamped).Perm
      (((List.range (ceilDivide packet.length shape.payloadBytes)).map
        (fragmentAt (cutting shape packet))).map unstamped) := by
  have hceil : ceilDivide packet.length shape.payloadBytes = shape.count := by
    rw [hlength]
    rfl
  rw [hceil]
  obtain ⟨first, hfirst⟩ := List.exists_mem_of_ne_nil _ h.nonempty
  have hlong := (h.fits first hfirst).bounds.1
  have hbodies := (joined_eq_iff hlength h.payloadBytes.1 hlong h.fits h.nodup h.length).mp hpacket
  have hsame : ∀ fragment ∈ fragments,
      unstamped fragment = unstamped (fragmentAt (cutting shape packet) fragment.fragmentIndex) := by
    intro fragment hmem
    have hfits := h.fits fragment hmem
    have hbody := hbodies fragment hmem
    have hcount : fragment.fragmentCount = ceilDivide packet.length shape.payloadBytes := by
      rw [hceil]
      exact hfits.fragmentCount
    cases fragment with
    | mk type flags sessionId sequence packetId fragmentIndex fragmentCount packetLength body =>
      unfold unstamped fragmentAt cutting
      dsimp only at hbody hcount ⊢
      rw [hbody, hcount, hlength, show type = .data from hfits.type,
        show sessionId = shape.sessionId from hfits.sessionId,
        show packetId = shape.packetId from hfits.packetId,
        show packetLength = shape.packetLength from hfits.packetLength]
  have hmap : fragments.map unstamped =
      (fragments.map (·.fragmentIndex)).map
        (unstamped ∘ fragmentAt (cutting shape packet)) := by
    rw [List.map_map]
    exact List.map_congr_left hsame
  rw [hmap, List.map_map (l := List.range shape.count)]
  exact h.indices.map _

/-- Every order of a packet's fragments gives the packet back, and a collection that gives a
packet is, apart from order, transmission counters and sender flags, that packet cut with the
session, the packet identifier and the payload size of the collection. -/
theorem fragments_inverse :
    (∀ (input : FragmentPacketInput) (cut fragments : List Fas1Unit),
      (input.sender = fas1SenderA ∨ input.sender = fas1SenderB) →
      fragmentPacket input = .ok cut → fragments.Perm cut →
      reassemblePacket fragments input.payloadBytes = .ok input.packet) ∧
    ∀ (fragments : List Fas1Unit) (payloadBytes : ℕ) (packet : Bytes),
      reassemblePacket fragments payloadBytes = .ok packet →
      ∃ (sessionId packetId : ℕ) (cut : List Fas1Unit),
        (∀ fragment ∈ fragments,
          fragment.sessionId = sessionId ∧ fragment.packetId = packetId) ∧
        fragmentPacket ⟨packet, sessionId, 0, packetId, fas1SenderA, payloadBytes⟩ = .ok cut ∧
        (fragments.map unstamped).Perm (cut.map unstamped) := by
  refine ⟨fun input cut fragments hsender hcut hperm =>
    reassemblePacket_of_perm hsender hcut hperm, fun fragments payloadBytes packet h => ?_⟩
  obtain ⟨first, hfirst, hcomplete⟩ := complete_of_reassemblePacket h
  obtain ⟨hjoined, hlength⟩ := reassemblePacket_complete hcomplete.payloadBytes hcomplete.fits
    hcomplete.nodup hcomplete.length hcomplete.nonempty
  have hpacket : joined fragments (shapeOf first payloadBytes).count = packet :=
    Except.ok.inj (hjoined.symm.trans h)
  rw [hpacket] at hlength
  refine ⟨first.sessionId, first.packetId, _, ?_,
    fragmentPacket_of_admissible (cutting_admissible (hcomplete.fits first hfirst) hlength
      hcomplete.payloadBytes),
    hcomplete.perm hpacket hlength⟩
  intro fragment hmem
  exact ⟨(hcomplete.fits fragment hmem).sessionId, (hcomplete.fits fragment hmem).packetId⟩

end Fipwave.FragmentInverse
