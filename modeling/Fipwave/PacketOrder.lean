import Fipwave.LabelledStream
import Fipwave.PacketAssembly
import Fipwave.TurnToken

/-!
# The order of the packets of a session

A session accepts packets under increasing identifiers, as long as the counter
does not come round. Its pending packets are in the order in which they will
be sent: the active one, then the queues by class, each in the order of
acceptance. So the fragments of one packet stand together among the units an
end has sent, and within a class packets are sent in the order in which they
were accepted.
-/

namespace Fipwave.PacketOrder

open Relation TransitionRun LabelledStream ByteWords AcousticProtocol PacketFragments
  AcousticHandshake AcousticState AcousticDelivery AcousticSession AcousticLink DeliveryMachine
  DeliveryRefinement PacketAssembly TurnToken

/-- A pending packet goes before another one: they have different identifiers, and within a class
the identifier is lower and the bytes are others. -/
def Precedes (p q : PendingPacket) : Prop :=
  p.packetId ≠ q.packetId ∧
    (p.trafficClass = q.trafficClass → p.packetId < q.packetId ∧ p.packet ≠ q.packet)

/-- Two accepted packets are different, and those of one class are in order. -/
def Before (accepted : List AcceptedPacket) (p q : ℕ) : Prop :=
  p ≠ q ∧ ∃ a ∈ accepted, ∃ b ∈ accepted,
    a.packetId = p ∧ b.packetId = q ∧ (a.trafficClass = b.trafficClass → p < q)

/-- Fragments that a packet of a session was cut into. -/
def CutFrom (sessionId packetId : ℕ) (packet : Bytes) (fragments : List Fas1Unit) : Prop :=
  ∃ input, fragmentPacket input = .ok fragments ∧ input.sessionId = sessionId ∧
    input.packetId = packetId ∧ input.packet = packet

/-- Every queue holds packets of its class. -/
structure Classed (queues : Queues) : Prop where
  /-- The control queue. -/
  control : ∀ p ∈ queues.control, p.trafficClass = .control
  /-- The heartbeat queue. -/
  heartbeat : ∀ p ∈ queues.heartbeat, p.trafficClass = .heartbeat
  /-- The ordinary queue. -/
  ordinary : ∀ p ∈ queues.ordinary, p.trafficClass = .ordinary

/-- What holds of the pending packets of a session. -/
structure Queued (role : AcousticRole) (c : Core) : Prop where
  /-- Packets are accepted under increasing identifiers. -/
  numbers : c.accepted.Pairwise (fun a b => a.packetId < b.packetId)
  /-- The next identifier is higher. -/
  counter : ∀ a ∈ c.accepted, a.packetId < c.delivery.packetId
  /-- A session at rest has no packet. -/
  resting : c.state = restState role → pendingOf c.delivery = []
  /-- Pending packets were accepted in the current session and cut. -/
  recorded : ∀ p ∈ pendingOf c.delivery, ∃ sessionId, c.sessionId = some sessionId ∧
    acceptedOf c.generation sessionId p ∈ c.accepted ∧
    CutFrom sessionId p.packetId p.packet p.fragments
  /-- Every queue holds its class. -/
  classed : Classed c.delivery.queues
  /-- Pending packets are in order. -/
  order : (pendingOf c.delivery).Pairwise Precedes
  /-- There is a bound. -/
  bound : (pendingOf c.delivery).length ≤ maxQueuedPackets

section Before

variable {accepted more : List AcceptedPacket} {p q : ℕ}

/-- The order of two accepted packets stands when more are accepted. -/
theorem Before.append (h : Before accepted p q) : Before (accepted ++ more) p q := by
  obtain ⟨hne, a, ha, b, hb, hp, hq, hclass⟩ := h
  exact ⟨hne, a, List.mem_append_left _ ha, b, List.mem_append_left _ hb, hp, hq, hclass⟩

/-- Pending packets in order were accepted in order. -/
theorem before_of_precedes {generation sessionId : ℕ} {p q : PendingPacket}
    (hp : acceptedOf generation sessionId p ∈ accepted)
    (hq : acceptedOf generation sessionId q ∈ accepted) (h : Precedes p q) :
    Before accepted p.packetId q.packetId :=
  ⟨h.1, _, hp, _, hq, rfl, rfl, fun hclass => (h.2 hclass).1⟩

/-- Identifiers of accepted packets are different. -/
theorem accepted_unique (hnumbers : accepted.Pairwise (fun a b => a.packetId < b.packetId))
    {a b : AcceptedPacket} (ha : a ∈ accepted) (hb : b ∈ accepted) (h : a.packetId = b.packetId) :
    a = b := by
  induction accepted with
  | nil => cases ha
  | cons first rest ih =>
    rw [List.pairwise_cons] at hnumbers
    rcases List.mem_cons.mp ha with rfl | hrest
    · rcases List.mem_cons.mp hb with rfl | hlater
      · rfl
      · have hlt := hnumbers.1 b hlater
        omega
    · rcases List.mem_cons.mp hb with rfl | hlater
      · have hlt := hnumbers.1 a hrest
        omega
      · exact ih hnumbers.2 hrest hlater

end Before

section Queues

variable {queues : Queues} {pending : PendingPacket}

/-- Queued packets, the most urgent class first. -/
def waitingOf (queues : Queues) : List PendingPacket :=
  queues.control ++ queues.heartbeat ++ queues.ordinary

theorem pendingOf_eq (delivery : Delivery) :
    pendingOf delivery = delivery.active.toList ++ waitingOf delivery.queues := by
  simp only [pendingOf, waitingOf, List.append_assoc]

/-- The packet that is taken was the first of those waiting. -/
theorem waitingOf_dequeue (queues : Queues) :
    (dequeue queues).1.toList ++ waitingOf (dequeue queues).2 = waitingOf queues := by
  obtain ⟨control, heartbeat, ordinary⟩ := queues
  cases control with
  | cons item control => rfl
  | nil =>
    cases heartbeat with
    | cons item heartbeat => rfl
    | nil =>
      cases ordinary with
      | cons item ordinary => rfl
      | nil => rfl

/-- Taking a packet off leaves every class in its own queue. -/
theorem classed_dequeue (h : Classed queues) : Classed (dequeue queues).2 := by
  obtain ⟨control, heartbeat, ordinary⟩ := queues
  cases control with
  | cons item control =>
    exact ⟨fun p hp => h.control p (List.mem_cons_of_mem _ hp), h.heartbeat, h.ordinary⟩
  | nil =>
    cases heartbeat with
    | cons item heartbeat =>
      exact ⟨h.control, fun p hp => h.heartbeat p (List.mem_cons_of_mem _ hp), h.ordinary⟩
    | nil =>
      cases ordinary with
      | cons item ordinary =>
        exact ⟨h.control, h.heartbeat, fun p hp => h.ordinary p (List.mem_cons_of_mem _ hp)⟩
      | nil => exact h

/-- Dropping stale packets leaves every class in its own queue. -/
theorem classed_retained (now : ℕ) (h : Classed queues) :
    Classed ⟨retained now queues.control, retained now queues.heartbeat,
      retained now queues.ordinary⟩ :=
  ⟨fun p hp => h.control p (List.mem_of_mem_filter hp),
    fun p hp => h.heartbeat p (List.mem_of_mem_filter hp),
    fun p hp => h.ordinary p (List.mem_of_mem_filter hp)⟩

/-- A new packet joins the queue of its class. -/
theorem classed_pushPacket (h : Classed queues) : Classed (pushPacket pending queues) := by
  unfold pushPacket
  split
  · next hclass =>
    refine ⟨fun p hp => ?_, h.heartbeat, h.ordinary⟩
    rcases List.mem_append.mp hp with hp | hp
    · exact h.control p hp
    · rw [List.mem_singleton.mp hp, hclass]
  · next hclass =>
    refine ⟨h.control, fun p hp => ?_, h.ordinary⟩
    rcases List.mem_append.mp hp with hp | hp
    · exact h.heartbeat p hp
    · rw [List.mem_singleton.mp hp, hclass]
  · next hclass =>
    refine ⟨h.control, h.heartbeat, fun p hp => ?_⟩
    rcases List.mem_append.mp hp with hp | hp
    · exact h.ordinary p hp
    · rw [List.mem_singleton.mp hp, hclass]

/-- A packet is queued behind its class and before the less urgent ones. -/
theorem waitingOf_pushPacket (pending : PendingPacket) (h : Classed queues) : ∃ front back,
    waitingOf queues = front ++ back ∧
      waitingOf (pushPacket pending queues) = front ++ pending :: back ∧
      ∀ p ∈ back, p.trafficClass ≠ pending.trafficClass := by
  cases hclass : pending.trafficClass with
  | control =>
    refine ⟨queues.control, queues.heartbeat ++ queues.ordinary, ?_, ?_, ?_⟩
    · simp [waitingOf]
    · simp [waitingOf, pushPacket, hclass]
    · intro p hp
      rcases List.mem_append.mp hp with hp | hp
      · simp [h.heartbeat p hp]
      · simp [h.ordinary p hp]
  | heartbeat =>
    refine ⟨queues.control ++ queues.heartbeat, queues.ordinary, ?_, ?_, ?_⟩
    · simp [waitingOf]
    · simp [waitingOf, pushPacket, hclass]
    · intro p hp
      simp [h.ordinary p hp]
  | ordinary =>
    refine ⟨waitingOf queues, [], ?_, ?_, ?_⟩
    · simp
    · simp [waitingOf, pushPacket, hclass]
    · simp

/-- A packet with the highest identifier and new bytes joins the pending ones in order. -/
theorem order_pushPacket {front back : List PendingPacket}
    (h : (front ++ back).Pairwise Precedes)
    (hhigher : ∀ p ∈ front ++ back, p.packetId < pending.packetId)
    (hfresh : ∀ p ∈ front ++ back,
      ¬(p.trafficClass = pending.trafficClass ∧ p.packet = pending.packet))
    (hback : ∀ p ∈ back, p.trafficClass ≠ pending.trafficClass) :
    (front ++ pending :: back).Pairwise Precedes := by
  rw [List.pairwise_append] at h
  obtain ⟨hfront, hrest, hacross⟩ := h
  rw [List.pairwise_append, List.pairwise_cons]
  refine ⟨hfront, ⟨fun p hp => ?_, hrest⟩, fun p hp q hq => ?_⟩
  · have hlt := hhigher p (List.mem_append_right _ hp)
    exact ⟨by omega, fun hclass => absurd hclass.symm (hback p hp)⟩
  · rcases List.mem_cons.mp hq with rfl | hq
    · have hmem : p ∈ front ++ back := List.mem_append_left _ hp
      have hlt := hhigher p hmem
      exact ⟨by omega, fun hclass => ⟨hlt, fun hsame => hfresh p hmem ⟨hclass, hsame⟩⟩⟩
    · exact hacross p hp q hq

end Queues

section Moves

variable {x : Context} {role : AcousticRole} {c d : Core}

/-- A session that is being set up does not rest. -/
theorem early_ne_rest {state : AcousticSessionState} (h : Early state) :
    state ≠ restState role := by
  unfold Early at h
  simp only [List.mem_cons, List.not_mem_nil, or_false] at h
  rcases h with rfl | rfl | rfl | rfl | rfl | rfl <;> cases role <;> decide

/-- A session that drops packets at most stays in order. -/
theorem queued_fewer (h : Queued role c)
    (hsub : (pendingOf d.delivery).Sublist (pendingOf c.delivery))
    (hclassed : Classed d.delivery.queues) (haccepted : d.accepted = c.accepted)
    (hcounter : c.delivery.packetId ≤ d.delivery.packetId) (hsession : d.sessionId = c.sessionId)
    (hgeneration : d.generation = c.generation)
    (hrest : d.state = restState role → c.state = restState role) : Queued role d := by
  refine ⟨haccepted ▸ h.numbers, fun a ha => ?_, fun hstate => ?_, fun p hp => ?_, hclassed,
    h.order.sublist hsub, hsub.length_le.trans h.bound⟩
  · rw [haccepted] at ha
    exact (h.counter a ha).trans_le hcounter
  · rw [h.resting (hrest hstate)] at hsub
    exact List.sublist_nil.mp hsub
  · rw [haccepted, hsession, hgeneration]
    exact h.recorded p (hsub.subset hp)

/-- The packet being sent may change anything but what it is: its identifier, its class and its
record stand, so the order does. -/
theorem queued_active {pending other : PendingPacket} (h : Queued role c)
    (hactive : c.delivery.active = some pending) (hother : d.delivery.active = some other)
    (hqueues : d.delivery.queues = c.delivery.queues) (hid : other.packetId = pending.packetId)
    (hclass : other.trafficClass = pending.trafficClass) (hpacket : other.packet = pending.packet)
    (hfragments : other.fragments = pending.fragments) (haccepted : d.accepted = c.accepted)
    (hcounter : d.delivery.packetId = c.delivery.packetId) (hsession : d.sessionId = c.sessionId)
    (hgeneration : d.generation = c.generation) (hrest : d.state = c.state) : Queued role d := by
  have hc : pendingOf c.delivery = pending :: waitingOf c.delivery.queues := by
    rw [pendingOf_eq, hactive]
    rfl
  have hd : pendingOf d.delivery = other :: waitingOf c.delivery.queues := by
    rw [pendingOf_eq, hother, hqueues]
    rfl
  have hrecord : ∀ generation sessionId,
      acceptedOf generation sessionId other = acceptedOf generation sessionId pending := by
    intro generation sessionId
    unfold acceptedOf
    rw [hid, hclass, hpacket]
  have horder := h.order
  rw [hc, List.pairwise_cons] at horder
  refine ⟨haccepted ▸ h.numbers, fun a ha => ?_, fun hstate => ?_, fun p hp => ?_,
    hqueues ▸ h.classed, ?_, ?_⟩
  · rw [haccepted] at ha
    rw [hcounter]
    exact h.counter a ha
  · rw [hrest] at hstate
    have hnone := h.resting hstate
    rw [hc] at hnone
    cases hnone
  · rw [haccepted, hsession, hgeneration]
    rw [hd] at hp
    rcases List.mem_cons.mp hp with rfl | hp
    · have hmem : pending ∈ pendingOf c.delivery := by
        rw [hc]
        exact List.mem_cons_self
      obtain ⟨sessionId, hsessionId, hrecorded, hcut⟩ := h.recorded pending hmem
      refine ⟨sessionId, hsessionId, ?_, ?_⟩
      · rw [hrecord]
        exact hrecorded
      · rw [hid, hpacket, hfragments]
        exact hcut
    · refine h.recorded p ?_
      rw [hc]
      exact List.mem_cons_of_mem _ hp
  · rw [hd, List.pairwise_cons]
    refine ⟨fun p hp => ?_, horder.2⟩
    have hprecedes := horder.1 p hp
    unfold Precedes at hprecedes ⊢
    rwa [hid, hclass, hpacket]
  · have hbound := h.bound
    rw [hc] at hbound
    rw [hd]
    exact hbound

/-- A packet that is accepted joins the others in order. It takes the counter's value, which is
above every identifier pending. -/
theorem queued_accept {input : FragmentPacketInput} {fragments : List Fas1Unit}
    {trafficClass : AcousticTrafficClass} {now : ℕ} (h : Queued role c)
    (hstate : c.state = .ready) (hsession : c.sessionId = some input.sessionId)
    (hid : input.packetId = c.delivery.packetId) (hfragments : fragmentPacket input = .ok fragments)
    (hfresh : ∀ entry ∈ pendingOf c.delivery,
      ¬(entry.trafficClass = trafficClass ∧ entry.packet = input.packet))
    (hroom : (pendingOf c.delivery).length < maxQueuedPackets)
    (hnext : c.delivery.packetId < nextPacketId c.delivery.packetId) :
    Queued role { c with
      delivery.packetId := nextPacketId c.delivery.packetId
      delivery.queues := pushPacket (newPacket now input fragments trafficClass) c.delivery.queues
      accepted := c.accepted ++ [acceptedOf c.generation input.sessionId
        (newPacket now input fragments trafficClass)] } := by
  obtain ⟨front, back, hwaiting, hpushed, hback⟩ :=
    waitingOf_pushPacket (newPacket now input fragments trafficClass) h.classed
  have hc : pendingOf c.delivery = (c.delivery.active.toList ++ front) ++ back := by
    rw [pendingOf_eq, hwaiting, List.append_assoc]
  have hlower : ∀ p ∈ pendingOf c.delivery, p.packetId < c.delivery.packetId := by
    intro p hp
    obtain ⟨sessionId, -, hrecorded, -⟩ := h.recorded p hp
    exact h.counter _ hrecorded
  have hnew : (newPacket now input fragments trafficClass).packetId = c.delivery.packetId := hid
  constructor
  · refine List.pairwise_append.mpr ⟨h.numbers, List.pairwise_singleton _ _, fun a ha b hb => ?_⟩
    have hlt := h.counter a ha
    rw [List.mem_singleton.mp hb]
    exact hlt.trans_eq hid.symm
  · intro a ha
    rcases List.mem_append.mp ha with ha | ha
    · exact (h.counter a ha).trans hnext
    · rw [List.mem_singleton.mp ha]
      exact hid.trans_lt hnext
  · intro hrest
    rw [hstate] at hrest
    cases role <;> cases hrest
  · intro p hp
    rw [pendingOf_eq, hpushed] at hp
    simp only [List.mem_append, List.mem_cons] at hp
    refine ⟨input.sessionId, hsession, ?_⟩
    have hold : p ∈ pendingOf c.delivery → acceptedOf c.generation input.sessionId p ∈ c.accepted ∧
        CutFrom input.sessionId p.packetId p.packet p.fragments := by
      intro hmem
      obtain ⟨sessionId, hother, hrecorded, hcut⟩ := h.recorded p hmem
      have hsame : sessionId = input.sessionId := Option.some.inj (hother.symm.trans hsession)
      rw [hsame] at hrecorded hcut
      exact ⟨hrecorded, hcut⟩
    by_cases hmem : p ∈ pendingOf c.delivery
    · exact ⟨List.mem_append_left _ (hold hmem).1, (hold hmem).2⟩
    · have heq : p = newPacket now input fragments trafficClass := by
        rw [hc] at hmem
        simp only [List.mem_append] at hmem
        tauto
      rw [heq]
      exact ⟨List.mem_append_right _ List.mem_cons_self, input, hfragments, rfl, rfl, rfl⟩
  · exact classed_pushPacket h.classed
  · rw [pendingOf_eq, hpushed, ← List.append_assoc]
    refine order_pushPacket (hc ▸ h.order) ?_ ?_ hback
    · intro p hp
      rw [← hc] at hp
      rw [hnew]
      exact hlower p hp
    · intro p hp
      rw [← hc] at hp
      exact hfresh p hp
  · have hlength : (pendingOf c.delivery).length =
        c.delivery.active.toList.length + (front.length + back.length) := by
      rw [hc]
      simp
    rw [pendingOf_eq, hpushed]
    simp only [List.length_append, List.length_cons]
    omega

theorem nextPacketId_lt {packetId : ℕ} (h : packetId ≠ uint32Max) :
    packetId < nextPacketId packetId := by
  unfold nextPacketId
  rw [if_neg h]
  omega

/-- Moves keep the pending packets in order, as long as the identifiers do not come round. Packets
are dropped, taken up or appended, one case for each. -/
theorem queued_move (h : Move x c d) (hc : Queued x.role c) (hwrap : ¬x.wrapping) :
    Queued x.role d := by
  have hself : (pendingOf c.delivery).Sublist (pendingOf c.delivery) := List.Sublist.refl _
  cases h with
  | negotiate _ units state hunits hwf hstate =>
    refine queued_fewer hc hself hc.classed rfl le_rfl rfl rfl (fun hrest => ?_)
    rcases hstate with heq | heq | ⟨-, hearly⟩
    · exact heq.symm.trans hrest
    · refine absurd ?_ (not_established_of_rest hrest)
      rw [heq]
      simp [Established]
    · exact absurd hrest (early_ne_rest hearly)
  | openSession _ sessionId state hrest hstate =>
    have hnone := hc.resting hrest
    have hempty : ∀ p, p ∉ pendingOf c.delivery := by simp [hnone]
    exact ⟨hc.numbers, hc.counter, fun _ => hnone, fun p hp => absurd hp (hempty p), hc.classed,
      hc.order, hc.bound⟩
  | reset =>
    refine ⟨hc.numbers, hc.counter, fun _ => rfl, fun p hp => ?_, ?_, List.Pairwise.nil, ?_⟩
    · cases hp
    · constructor <;> intro p hp <;> cases hp
    · exact Nat.zero_le _
  | expireQueues =>
    refine queued_fewer hc ?_ (classed_retained x.now hc.classed) rfl le_rfl rfl rfl id
    rw [pendingOf_eq, pendingOf_eq]
    have hretained : (waitingOf ⟨retained x.now c.delivery.queues.control,
        retained x.now c.delivery.queues.heartbeat,
        retained x.now c.delivery.queues.ordinary⟩).Sublist (waitingOf c.delivery.queues) :=
      (List.filter_sublist.append List.filter_sublist).append List.filter_sublist
    exact (List.Sublist.refl _).append hretained
  | dropActive _ pending hactive =>
    refine queued_fewer hc ?_ hc.classed rfl le_rfl rfl rfl id
    rw [pendingOf_eq, pendingOf_eq]
    exact List.sublist_append_right _ _
  | skipTurn _ pending timer hactive =>
    refine queued_fewer hc ?_ hc.classed rfl le_rfl rfl rfl id
    rw [pendingOf_eq, pendingOf_eq]
    exact List.sublist_append_right _ _
  | fullAck _ unit pending sessionId =>
    refine queued_fewer hc ?_ hc.classed rfl le_rfl rfl rfl id
    rw [pendingOf_eq, pendingOf_eq]
    exact List.sublist_append_right _ _
  | activate _ hactive =>
    refine queued_fewer hc ?_ (classed_dequeue hc.classed) rfl le_rfl rfl rfl id
    rw [pendingOf_eq, pendingOf_eq, hactive]
    dsimp only
    rw [waitingOf_dequeue]
    exact List.Sublist.refl _
  | burst _ pending turnEnd count hstate howner hactive =>
    exact queued_active hc hactive rfl rfl rfl rfl rfl rfl rfl rfl rfl rfl rfl
  | partialAck _ unit pending timer hunit htype hstate hsession hactive =>
    exact queued_active hc hactive rfl rfl rfl rfl rfl rfl rfl rfl rfl rfl rfl
  | drawPacketId _ hmax =>
    have hlt := nextPacketId_lt (fun heq => hwrap (hmax heq))
    exact queued_fewer hc hself hc.classed rfl hlt.le rfl rfl id
  | accept _ input fragments trafficClass hstate hsession hid hmax hfragments hfresh hroom =>
    exact queued_accept hc hstate hsession hid hfragments hfresh hroom
      (nextPacketId_lt (fun heq => hwrap (hmax heq)))
  | commitToken | degrade | recover | resync | unansweredResync =>
    refine queued_fewer hc hself hc.classed rfl le_rfl rfl rfl (fun hrest => ?_)
    exact absurd (by simp [Established]) (not_established_of_rest hrest)
  | _ => exact queued_fewer hc hself hc.classed rfl le_rfl rfl rfl id

end Moves

/-- The packet that a unit is a fragment of. -/
def packetOf (unit : Fas1Unit) : Option ℕ := if unit.type = .data then some unit.packetId else none

/-- What holds of the fragments that an end has sent. -/
structure Transmits (c : Core) : Prop where
  /-- Every fragment is of an accepted packet. -/
  cut : ∀ unit ∈ c.sent, unit.type = .data → ∃ a ∈ c.accepted, ∃ fragments,
    CutFrom a.sessionId a.packetId a.packet fragments ∧ unit ∈ fragments
  /-- The fragments of one packet stand together, and packets are in order. -/
  serial : Serial packetOf (Before c.accepted) c.sent
  /-- The packet being sent is the last one. -/
  active : ∀ pending, c.delivery.active = some pending →
    Last packetOf c.sent pending.packetId ∧
      ∀ i p, At packetOf c.sent i p → p ≠ pending.packetId → Before c.accepted p pending.packetId
  /-- Its fragments are the only ones under its identifier. -/
  own : ∀ pending, c.delivery.active = some pending →
    ∀ unit ∈ c.sent, packetOf unit = some pending.packetId → unit ∈ pending.fragments
  /-- Nothing of a queued packet was sent, and it comes later. -/
  waiting : ∀ pending ∈ waitingOf c.delivery.queues, ∀ i p, At packetOf c.sent i p →
    Before c.accepted p pending.packetId

section Sending

variable {x : Context} {role : AcousticRole} {c d : Core}

/-- A unit that is no DATA unit belongs to no packet. -/
theorem packetOf_plain {unit : Fas1Unit} (h : unit.type ≠ .data) : packetOf unit = none := if_neg h

/-- A DATA unit belongs to the packet whose identifier it carries. -/
theorem packetOf_eq_some {unit : Fas1Unit} {p : ℕ} :
    packetOf unit = some p ↔ unit.type = .data ∧ unit.packetId = p := by
  unfold packetOf
  split
  · next hdata => simp [hdata]
  · next hdata => simp [hdata]

/-- What a fragment tells of its packet. -/
theorem fragment_of_cut {sessionId packetId : ℕ} {packet : Bytes} {fragments : List Fas1Unit}
    {unit : Fas1Unit} (h : CutFrom sessionId packetId packet fragments) (hunit : unit ∈ fragments) :
    packetOf unit = some packetId ∧ unit.sessionId = sessionId := by
  obtain ⟨input, hcut, hsession, hid, -⟩ := h
  rw [(fragmentPacket_ok hcut).2, List.mem_map] at hunit
  obtain ⟨index, -, rfl⟩ := hunit
  exact ⟨packetOf_eq_some.mpr ⟨rfl, hid⟩, hsession⟩

/-- The units of the handshake carry no packet. -/
theorem negotiating_plain {role : AcousticRole} {type : Fas1UnitType} (h : Negotiating role type) :
    type ≠ .data := by
  rintro rfl
  rcases h with h | ⟨h, -⟩
  · simp at h
  · cases h

/-- What is sent besides fragments, and packets that are dropped, keep the order: neither has a
label in the stream. -/
theorem transmits_plain {units : List Fas1Unit} (h : Transmits c) (hsent : d.sent = c.sent ++ units)
    (hplain : ∀ unit ∈ units, unit.type ≠ .data) (haccepted : d.accepted = c.accepted)
    (hactive : ∀ pending, d.delivery.active = some pending → ∃ other,
      c.delivery.active = some other ∧ other.packetId = pending.packetId ∧
        other.fragments = pending.fragments)
    (hwaiting : ∀ pending ∈ waitingOf d.delivery.queues, pending ∈ waitingOf c.delivery.queues) :
    Transmits d := by
  have hnone : ∀ unit ∈ units, packetOf unit = none :=
    fun unit hunit => packetOf_plain (hplain unit hunit)
  have hback : ∀ {i p}, At packetOf d.sent i p → At packetOf c.sent i p := by
    intro i p hp
    rw [hsent] at hp
    rcases at_append hp with hp | ⟨-, unit, hunit, hlabel⟩
    · exact hp
    · rw [hnone unit hunit] at hlabel
      cases hlabel
  refine ⟨fun unit hunit htype => ?_, ?_, fun pending hpending => ?_,
    fun pending hpending unit hunit hlabel => ?_, fun pending hpending i p hp => ?_⟩
  · rw [hsent] at hunit
    rw [haccepted]
    rcases List.mem_append.mp hunit with hunit | hunit
    · exact h.cut unit hunit htype
    · exact absurd htype (hplain unit hunit)
  · rw [hsent, haccepted]
    exact h.serial.append_plain hnone
  · obtain ⟨other, hother, hid, -⟩ := hactive pending hpending
    obtain ⟨hlast, hbefore⟩ := h.active other hother
    rw [hid] at hlast hbefore
    rw [haccepted]
    refine ⟨?_, fun i p hp => hbefore i p (hback hp)⟩
    rw [hsent]
    exact hlast.append_plain hnone
  · obtain ⟨other, hother, hid, hfragments⟩ := hactive pending hpending
    rw [hsent] at hunit
    rcases List.mem_append.mp hunit with hunit | hunit
    · rw [← hid] at hlabel
      rw [← hfragments]
      exact h.own other hother unit hunit hlabel
    · rw [hnone unit hunit] at hlabel
      cases hlabel
  · rw [haccepted]
    exact h.waiting pending (hwaiting pending hpending) i p (hback hp)

/-- Nothing is sent, and packets are dropped at most. -/
theorem transmits_fewer (h : Transmits c) (hsent : d.sent = c.sent)
    (haccepted : d.accepted = c.accepted)
    (hactive : ∀ pending, d.delivery.active = some pending → ∃ other,
      c.delivery.active = some other ∧ other.packetId = pending.packetId ∧
        other.fragments = pending.fragments)
    (hwaiting : ∀ pending ∈ waitingOf d.delivery.queues, pending ∈ waitingOf c.delivery.queues) :
    Transmits d := by
  have happend : d.sent = c.sent ++ [] := by rw [List.append_nil, hsent]
  exact transmits_plain h happend (by simp) haccepted hactive hwaiting

/-- The next packet comes after all that was sent. -/
theorem transmits_activate (h : Transmits c) :
    Transmits { c with
      delivery.active := (dequeue c.delivery.queues).1
      delivery.queues := (dequeue c.delivery.queues).2 } := by
  have hwaiting := waitingOf_dequeue c.delivery.queues
  have hnext : ∀ pending, (dequeue c.delivery.queues).1 = some pending →
      pending ∈ waitingOf c.delivery.queues := by
    intro pending hpending
    rw [← hwaiting]
    refine List.mem_append_left _ ?_
    rw [Option.mem_toList]
    exact hpending
  refine ⟨h.cut, h.serial, fun pending hpending => ?_, fun pending hpending unit hunit hlabel => ?_,
    fun pending hpending => ?_⟩
  · have hbefore := h.waiting pending (hnext pending hpending)
    exact ⟨last_of_absent (fun i hp => (hbefore i _ hp).1 rfl), fun i p hp _ => hbefore i p hp⟩
  · obtain ⟨i, hi⟩ := List.getElem?_of_mem hunit
    exact absurd rfl (h.waiting pending (hnext pending hpending) i _ ⟨unit, hi, hlabel⟩).1
  · refine h.waiting pending ?_
    rw [← hwaiting]
    exact List.mem_append_right _ hpending

/-- A burst adds fragments of the packet being sent. Their label is the last one of the stream, or
follows everything sent before. -/
theorem transmits_burst {pending : PendingPacket} {turnEnd : Fas1Unit} {count : ℕ}
    (h : Transmits c) (hq : Queued role c) (hactive : c.delivery.active = some pending)
    (htype : turnEnd.type = .turnEnd) :
    Transmits { c with
      delivery.active := some (burstOf pending)
      delivery.awaitingAck := true
      sent := c.sent ++ (missingFragments pending ++ [turnEnd]).take count } := by
  have hpending : pendingOf c.delivery = pending :: waitingOf c.delivery.queues := by
    rw [pendingOf_eq, hactive]
    rfl
  obtain ⟨sessionId, hsession, hrecorded, hcut⟩ :=
    hq.recorded pending (by rw [hpending]; exact List.mem_cons_self)
  obtain ⟨hlast, hbefore⟩ := h.active pending hactive
  have hfragment : ∀ unit ∈ (missingFragments pending ++ [turnEnd]).take count,
      unit.type = .data → unit ∈ pending.fragments := by
    intro unit hunit hdata
    rcases List.mem_append.mp (List.mem_of_mem_take hunit) with hunit | hunit
    · exact List.mem_of_mem_filter (List.mem_of_mem_take hunit)
    · rw [List.mem_singleton.mp hunit, htype] at hdata
      cases hdata
  have hlabel : ∀ unit ∈ (missingFragments pending ++ [turnEnd]).take count,
      ∀ q, packetOf unit = some q → q = pending.packetId := by
    intro unit hunit q hq
    have hmem := hfragment unit hunit (packetOf_eq_some.mp hq).1
    exact Option.some.inj (hq.symm.trans (fragment_of_cut hcut hmem).1)
  refine ⟨fun unit hunit hdata => ?_, h.serial.append hlast hlabel hbefore, fun other hother => ?_,
    fun other hother unit hunit hp => ?_, fun other hother i p hp => ?_⟩
  · rcases List.mem_append.mp hunit with hunit | hunit
    · exact h.cut unit hunit hdata
    · exact ⟨_, hrecorded, pending.fragments, hcut, hfragment unit hunit hdata⟩
  · have hid : other.packetId = pending.packetId := by
      rw [← Option.some.inj hother]
      rfl
    rw [hid]
    refine ⟨hlast.append hlabel, fun i p hp hne => ?_⟩
    rcases at_append hp with hp | ⟨-, unit, hunit, hp⟩
    · exact hbefore i p hp hne
    · exact absurd (hlabel unit hunit p hp) hne
  · rw [← Option.some.inj hother] at hp ⊢
    rcases List.mem_append.mp hunit with hunit | hunit
    · exact h.own pending hactive unit hunit hp
    · exact hfragment unit hunit (packetOf_eq_some.mp hp).1
  · rcases at_append hp with hp | ⟨-, unit, hunit, hp⟩
    · exact h.waiting other hother i p hp
    · rw [hlabel unit hunit p hp]
      have horder := hq.order
      rw [hpending, List.pairwise_cons] at horder
      obtain ⟨otherId, hsame, hrecord, -⟩ :=
        hq.recorded other (by rw [hpending]; exact List.mem_cons_of_mem _ hother)
      have heq : otherId = sessionId := Option.some.inj (hsame.symm.trans hsession)
      rw [heq] at hrecord
      exact before_of_precedes hrecorded hrecord (horder.1 other hother)

/-- A packet that is accepted comes after all that was sent. -/
theorem transmits_accept {input : FragmentPacketInput} {fragments : List Fas1Unit}
    {trafficClass : AcousticTrafficClass} {now : ℕ} (h : Transmits c) (hq : Queued role c)
    (hid : input.packetId = c.delivery.packetId) :
    Transmits { c with
      delivery.packetId := nextPacketId c.delivery.packetId
      delivery.queues := pushPacket (newPacket now input fragments trafficClass) c.delivery.queues
      accepted := c.accepted ++ [acceptedOf c.generation input.sessionId
        (newPacket now input fragments trafficClass)] } := by
  obtain ⟨front, back, hwaiting, hpushed, -⟩ :=
    waitingOf_pushPacket (newPacket now input fragments trafficClass) hq.classed
  refine ⟨fun unit hunit hdata => ?_, h.serial.mono (fun p q => Before.append), fun pending hp => ?_,
    h.own, fun pending hp i p hat => ?_⟩
  · obtain ⟨a, ha, rest⟩ := h.cut unit hunit hdata
    exact ⟨a, List.mem_append_left _ ha, rest⟩
  · obtain ⟨hlast, hbefore⟩ := h.active pending hp
    exact ⟨hlast, fun i p hat hne => (hbefore i p hat hne).append⟩
  · rw [hpushed] at hp
    by_cases hmem : pending ∈ waitingOf c.delivery.queues
    · exact (h.waiting pending hmem i p hat).append
    · have heq : pending = newPacket now input fragments trafficClass := by
        rw [hwaiting] at hmem
        simp only [List.mem_append, List.mem_cons] at hp hmem
        tauto
      rw [heq]
      obtain ⟨unit, hunit, hlabel⟩ := hat.mem
      obtain ⟨hdata, hpacket⟩ := packetOf_eq_some.mp hlabel
      obtain ⟨a, ha, fragments, hcut, hfragment⟩ := h.cut unit hunit hdata
      have hsame : a.packetId = p :=
        Option.some.inj ((fragment_of_cut hcut hfragment).1.symm.trans hlabel)
      have hlt := hq.counter a ha
      have hlower : p < input.packetId := by omega
      exact ⟨hlower.ne, a, List.mem_append_left _ ha, _,
        List.mem_append_right _ (List.mem_singleton_self _), hsame, rfl, fun _ => hlower⟩

/-- Moves keep the fragments that were sent in order. Only a burst sends fragments. -/
theorem transmits_move (h : Move x c d) (hq : Queued x.role c) (hc : Transmits c) :
    Transmits d := by
  have hself : ∀ pending, c.delivery.active = some pending → ∃ other,
      c.delivery.active = some other ∧ other.packetId = pending.packetId ∧
        other.fragments = pending.fragments :=
    fun pending hpending => ⟨pending, hpending, rfl, rfl⟩
  cases h with
  | negotiate _ units state hunits =>
    exact transmits_plain hc rfl (fun unit hunit => negotiating_plain (hunits unit hunit)) rfl hself
      (fun _ hp => hp)
  | reset => exact transmits_fewer hc rfl rfl (fun _ hp => by cases hp) (fun _ hp => by cases hp)
  | expireQueues =>
    refine transmits_fewer hc rfl rfl hself (fun pending hp => ?_)
    simp only [waitingOf, retained, List.mem_append, List.mem_filter] at hp ⊢
    tauto
  | dropActive | skipTurn | fullAck =>
    exact transmits_fewer hc rfl rfl (fun _ hp => by cases hp) (fun _ hp => hp)
  | activate => exact transmits_activate hc
  | closeTurn _ beats turnEnd hbeats htype =>
    refine transmits_plain hc (List.append_assoc _ _ _) (fun unit hunit => ?_) rfl hself
      (fun _ hp => hp)
    rcases List.mem_append.mp hunit with hunit | hunit
    · rw [hbeats unit hunit]
      decide
    · rw [List.mem_singleton.mp hunit, htype]
      decide
  | unclosedHeartbeat _ beat htype =>
    refine transmits_plain hc rfl (fun unit hunit => ?_) rfl hself (fun _ hp => hp)
    rw [List.mem_singleton.mp hunit, htype]
    decide
  | burst _ pending turnEnd count hstate howner hactive hawaiting hmissing htype =>
    exact transmits_burst hc hq hactive htype
  | replyAck _ unit ackUnit ack count hunit htype hstate hsession howner hack hackType =>
    refine transmits_plain hc rfl (fun other hother => ?_) rfl hself (fun _ hp => hp)
    rw [List.mem_singleton.mp (List.mem_of_mem_take hother), hackType]
    decide
  | partialAck _ unit pending timer hunit htype hstate hsession hactive =>
    refine transmits_fewer hc rfl rfl (fun other hother => ⟨pending, hactive, ?_⟩) (fun _ hp => hp)
    rw [← Option.some.inj hother]
    exact ⟨rfl, rfl⟩
  | resync unit units timer hunit htype hsession hstate hunits =>
    refine transmits_plain hc rfl (fun other hother => ?_) rfl hself (fun _ hp => hp)
    rw [(hunits other hother).1]
    decide
  | recoveryReply _ timer sessionId units htimer htask hunits =>
    refine transmits_plain hc rfl (fun other hother => ?_) rfl hself (fun _ hp => hp)
    rw [hunits other hother]
    decide
  | accept _ input fragments trafficClass hstate hsession hid =>
    exact transmits_accept hc hq hid
  | _ => exact transmits_fewer hc rfl rfl hself (fun _ hp => hp)

/-- The moves of a step keep both. -/
theorem order_moves (hmoves : Moves x c d) (hwrap : ¬x.wrapping) (hq : Queued x.role c)
    (hc : Transmits c) : Queued x.role d ∧ Transmits d := by
  induction hmoves with
  | refl => exact ⟨hq, hc⟩
  | tail _ hmove ih => exact ⟨queued_move hmove ih.1 hwrap, transmits_move hmove ih.1 ih.2⟩

end Sending

/-- What holds of the packets of a session. -/
structure Orderly (role : AcousticRole) (s : AcousticSession) : Prop where
  /-- Only A has a COMMIT to answer. -/
  fit : acknowledging s.tasks = true → role = .a
  /-- The pending packets. -/
  queued : Queued role (core s)
  /-- The fragments that were sent. -/
  transmits : Transmits (core s)

/-- An action offers a packet. -/
def offers : Action → Bool
  | .enqueuePacket _ _ => true
  | _ => false

/-- An event offers a packet. -/
def Offers : Event → Prop
  | .act action => offers action = true
  | .receive _ => False

instance : (event : Event) → Decidable (Offers event)
  | .act action => inferInstanceAs (Decidable (offers action = true))
  | .receive _ => isFalse id

/-- A packet is offered only while the counter is below its last value. -/
def Numbered (s : AcousticSession) (event : Readings × Event) : Prop :=
  Offers event.2 → s.delivery.packetId ≠ uint32Max

instance (s : AcousticSession) (event : Readings × Event) : Decidable (Numbered s event) :=
  inferInstanceAs (Decidable (_ → _))

section Session

variable {options : AcousticSessionOptions} {s : AcousticSession}

/-- Every action keeps the packets in order, unless it numbers one with the last identifier. -/
theorem orderly_act (readings : Readings) (action : Action)
    (hnumbers : offers action = true → s.delivery.packetId ≠ uint32Max)
    (h : Orderly options.role s) : Orderly options.role (act options readings action s) := by
  have hmoves : Moves ⟨options.role, core s, readings.now, none, options.candidates, True, False⟩
      (core s) (core (act options readings action s)) := by
    refine act_moves readings action rfl rfl rfl rfl (fun _ => trivial) ?_ h.fit
    intro packet trafficClass haction hmax
    exact hnumbers (by rw [haction]; rfl) hmax
  obtain ⟨hqueued, htransmits⟩ := order_moves hmoves not_false h.queued h.transmits
  exact ⟨fit_moves hmoves h.fit, hqueued, htransmits⟩

/-- A unit of the peer keeps the own packets in order. -/
theorem orderly_deliver (readings : Readings) (unit : Fas1Unit) (h : Orderly options.role s) :
    Orderly options.role (deliverUnit options readings unit s) := by
  have hmoves : Moves
      ⟨options.role, core s, readings.now, some unit, options.candidates, True, False⟩
      (core s) (core (deliverUnit options readings unit s)) :=
    deliverUnit_moves readings rfl rfl rfl rfl rfl
  obtain ⟨hqueued, htransmits⟩ := order_moves hmoves not_false h.queued h.transmits
  exact ⟨fit_moves hmoves h.fit, hqueued, htransmits⟩

/-- So does every event of a session. -/
theorem orderly_step (s : AcousticSession) (event : Readings × Event) (hevent : Numbered s event)
    (h : Orderly options.role s) : Orderly options.role (step options s event) := by
  obtain ⟨readings, event⟩ := event
  cases event with
  | act action => exact orderly_act readings action hevent h
  | receive raw =>
    simp only [step, receive]
    cases hdecode : decodeFas1 raw with
    | error message => exact h
    | ok unit => exact orderly_deliver readings unit h

/-- A session that has done nothing has nothing out of order. -/
theorem orderly_initial (role : AcousticRole) : Orderly role (initialSession role) := by
  have hcore : pendingOf (core (initialSession role)).delivery = [] := rfl
  refine ⟨by simp [initialSession, acknowledging, chainAcknowledges], ?_, ?_⟩
  · refine ⟨List.Pairwise.nil, by simp [core, initialSession], fun _ => rfl, by simp [hcore], ?_,
      List.Pairwise.nil, Nat.zero_le _⟩
    constructor <;> simp [core, initialSession]
  · exact ⟨by simp [core, initialSession], Serial.nil, by simp [core, initialSession],
      by simp [core, initialSession], by simp [core, initialSession, waitingOf]⟩

/-- The packets of a session are in order after every run that does not use up its identifiers. -/
theorem orderly_run {events : List (Readings × Event)}
    (h : Along (step options) Numbered (initialSession options.role) events) :
    Orderly options.role (runSession options events) :=
  invariant_along (step options) orderly_step (orderly_initial options.role) h

end Session

/-- How urgent a class is; the lowest goes first. -/
def urgency : AcousticTrafficClass → ℕ
  | .control => 0
  | .heartbeat => 1
  | .ordinary => 2

/-- Queued packets are ordered by urgency. -/
theorem urgency_waitingOf {queues : Queues} (h : Classed queues) :
    (waitingOf queues).Pairwise
      (fun p q => urgency p.trafficClass ≤ urgency q.trafficClass) := by
  have hsame : ∀ {trafficClass : AcousticTrafficClass} {packets : List PendingPacket},
      (∀ p ∈ packets, p.trafficClass = trafficClass) →
      packets.Pairwise (fun p q => urgency p.trafficClass ≤ urgency q.trafficClass) := by
    intro trafficClass packets hpackets
    refine List.pairwise_of_forall_mem_list (fun p hp q hq => ?_)
    rw [hpackets p hp, hpackets q hq]
  unfold waitingOf
  refine List.pairwise_append.mpr ⟨List.pairwise_append.mpr ⟨hsame h.control, hsame h.heartbeat,
    fun p hp q hq => ?_⟩, hsame h.ordinary, fun p hp q hq => ?_⟩
  · rw [h.control p hp, h.heartbeat q hq]
    decide
  · rw [h.ordinary q hq]
    cases p.trafficClass <;> decide

section Bench

/-- The bytes of a unit. -/
def rawOf (unit : Fas1Unit) : Bytes :=
  match encodeFas1 unit with
  | .ok raw => raw
  | .error _ => []

/-- A bench end receives the bytes of a unit. -/
def benchReceive (role : AcousticRole) (unit : Fas1Unit) : Readings × Event :=
  (benchReadings role, .receive (rawOf unit))

/-- The session of A on the bench from its start to the first turn, and five packets. -/
def benchOffers : List (Readings × Event) :=
  let offer (byte : UInt8) (trafficClass : AcousticTrafficClass) : Readings × Event :=
    (benchReadings .a, .act (.enqueuePacket [byte, byte] trafficClass))
  [(benchReadings .a, .act .start)] ++
    ((runLink benchLink benchEstablish).sent .b).dropLast.map (benchReceive .a) ++
    [(benchReadings .a, .act (.work false)), (benchReadings .a, .act (.work false))] ++
    ((runLink benchLink benchEstablish).sent .b).getLast?.toList.map (benchReceive .a) ++
    [offer 1 .ordinary, offer 2 .ordinary, offer 3 .control, offer 3 .control, offer 4 .heartbeat]

set_option maxRecDepth 8000 in
/-- The session of the example does not use them up. -/
theorem numbered_benchOffers :
    Along (step (benchOptions .a)) Numbered (initialSession .a) benchOffers := by
  decide +kernel

end Bench

/-- In every run that does not use up its packet identifiers, at most sixteen packets are pending,
no two under one identifier and no two of one class with the same bytes. The packet that is taken
next is at least as urgent as every other one that waits, and the first of its class. -/
theorem pending_run (options : AcousticSessionOptions) (events : List (Readings × Event))
    (h : Along (step options) Numbered (initialSession options.role) events) :
    let s := runSession options events
    (pendingPackets s).length ≤ maxQueuedPackets ∧
      (pendingPackets s).Pairwise (fun p q => p.packetId ≠ q.packetId ∧
        (p.trafficClass = q.trafficClass → p.packetId < q.packetId ∧ p.packet ≠ q.packet)) ∧
      ∀ next others, dequeue s.delivery.queues = (some next, others) →
        ∀ other ∈ waitingOf others, urgency next.trafficClass < urgency other.trafficClass ∨
          next.trafficClass = other.trafficClass ∧ next.packetId < other.packetId := by
  intro s
  have hs : Orderly options.role s := orderly_run h
  refine ⟨hs.queued.bound, hs.queued.order, fun next others hnext other hother => ?_⟩
  have hwaiting : waitingOf s.delivery.queues = next :: waitingOf others := by
    rw [← waitingOf_dequeue, hnext]
    rfl
  have hurgency := urgency_waitingOf hs.queued.classed
  have horder := hs.queued.order
  rw [pendingOf_eq] at horder
  have hqueue : (waitingOf s.delivery.queues).Pairwise Precedes := horder.sublist
    (List.sublist_append_right _ _)
  change (waitingOf s.delivery.queues).Pairwise _ at hurgency
  rw [hwaiting, List.pairwise_cons] at hurgency hqueue
  have hle := hurgency.1 other hother
  rcases hle.lt_or_eq with hlt | heq
  · exact .inl hlt
  · have hclass : next.trafficClass = other.trafficClass := by
      cases hn : next.trafficClass <;> cases ho : other.trafficClass <;>
        simp [hn, ho, urgency] at heq ⊢
    exact .inr ⟨hclass, ((hqueue.1 other hother).2 hclass).1⟩

set_option maxRecDepth 8000 in
/-- One packet is being sent and three wait, the last two in the order of their classes. -/
theorem pending_bench :
    (pendingPackets (runSession (benchOptions .a) benchOffers)).map (·.packetId) = [1, 3, 4, 2] ∧
      (pendingPackets (runSession (benchOptions .a) benchOffers)).length ≤ maxQueuedPackets := by
  have hpackets : (pendingPackets (runSession (benchOptions .a) benchOffers)).map (·.packetId) =
      [1, 3, 4, 2] := by decide +kernel
  exact ⟨hpackets, (pending_run (benchOptions .a) benchOffers numbered_benchOffers).1⟩

/-- In every run that does not use up its packet identifiers, every fragment sent is one of those
an accepted packet of its session was cut into, the fragments of one packet stand together, and
within a class packets are sent in the order in which they were accepted. -/
theorem sent_run (options : AcousticSessionOptions) (events : List (Readings × Event))
    (h : Along (step options) Numbered (initialSession options.role) events) :
    let s := runSession options events
    (∀ unit ∈ s.io.sent, unit.type = .data → ∃ a ∈ s.io.accepted, ∃ input fragments,
      fragmentPacket input = .ok fragments ∧ unit ∈ fragments ∧ input.packet = a.packet ∧
        input.packetId = a.packetId ∧ input.sessionId = a.sessionId) ∧
    (∀ (i j k : ℕ) (u v w : Fas1Unit), i < j → j < k → s.io.sent[i]? = some u →
      s.io.sent[j]? = some v → s.io.sent[k]? = some w → u.type = .data → v.type = .data →
      w.type = .data → w.packetId = u.packetId → v.packetId = u.packetId) ∧
    ∀ (i j : ℕ) (u v : Fas1Unit), i < j → s.io.sent[i]? = some u → s.io.sent[j]? = some v →
      u.type = .data → v.type = .data → u.packetId ≠ v.packetId →
      ∀ a ∈ s.io.accepted, ∀ b ∈ s.io.accepted, a.packetId = u.packetId →
        b.packetId = v.packetId → a.trafficClass = b.trafficClass → u.packetId < v.packetId := by
  intro s
  have hs : Orderly options.role s := orderly_run h
  have hat : ∀ {i : ℕ} {u : Fas1Unit}, s.io.sent[i]? = some u → u.type = .data →
      At packetOf (core s).sent i u.packetId :=
    fun hu hdata => ⟨_, hu, packetOf_eq_some.mpr ⟨hdata, rfl⟩⟩
  refine ⟨fun unit hunit hdata => ?_, fun i j k u v w hij hjk hu hv hw hud hvd hwd hsame => ?_,
    fun i j u v hij hu hv hud hvd hne a ha b hb hau hbv hclass => ?_⟩
  · obtain ⟨a, ha, fragments, ⟨input, hcut, hsession, hid, hpacket⟩, hmem⟩ :=
      hs.transmits.cut unit hunit hdata
    exact ⟨a, ha, input, fragments, hcut, hmem, hpacket, hid, hsession⟩
  · have hlast := hat hw hwd
    rw [hsame] at hlast
    exact hs.transmits.serial.together i j k _ _ hij hjk (hat hu hud) (hat hv hvd) hlast
  · obtain ⟨-, a', ha', b', hb', hau', hbv', hlt⟩ :=
      hs.transmits.serial.ordered i j _ _ hij (hat hu hud) (hat hv hvd) hne
    have hsameA : a' = a := accepted_unique hs.queued.numbers ha' ha (hau'.trans hau.symm)
    have hsameB : b' = b := accepted_unique hs.queued.numbers hb' hb (hbv'.trans hbv.symm)
    rw [hsameA, hsameB] at hlt
    exact hlt hclass

/-- B acknowledges the first of two packets and gives its turn back. -/
def benchReplies : List (Readings × LinkEvent) :=
  benchEstablish ++ [benchAct .a (.enqueuePacket [1, 1] .ordinary), benchDeliver .b,
    benchDeliver .b, benchDeliver .b, benchDeliver .a, benchDeliver .b,
    benchAct .b (.fire .deliveryTimer)]

/-- The session of A with the two packets, the ACK of the first one and the next turn. -/
def benchTurns : List (Readings × Event) :=
  benchOffers.dropLast.dropLast.dropLast ++
    (((runLink benchLink benchReplies).sent .b).drop 6).map (benchReceive .a) ++
    [(benchReadings .a, .act (.fire .deliveryTimer))]

set_option maxRecDepth 8000 in
/-- Two packets of one class are out, two fragments each, in the order in which they were
accepted. -/
theorem sent_bench :
    let s := runSession (benchOptions .a) benchTurns
    (s.io.sent.filter (fun unit => unit.type = .data)).map (·.packetId) = [1, 1, 2, 2] ∧
      s.io.accepted.map (fun a => (a.packetId, a.trafficClass)) =
        [(1, .ordinary), (2, .ordinary)] ∧
      (∀ unit ∈ s.io.sent, unit.type = .data → ∃ a ∈ s.io.accepted, ∃ input fragments,
        fragmentPacket input = .ok fragments ∧ unit ∈ fragments ∧ input.packet = a.packet ∧
          input.packetId = a.packetId ∧ input.sessionId = a.sessionId) ∧
      ∀ (i j : ℕ) (u v : Fas1Unit), i < j → s.io.sent[i]? = some u → s.io.sent[j]? = some v →
        u.type = .data → v.type = .data → u.packetId ≠ v.packetId →
        ∀ a ∈ s.io.accepted, ∀ b ∈ s.io.accepted, a.packetId = u.packetId →
          b.packetId = v.packetId → a.trafficClass = b.trafficClass →
            u.packetId < v.packetId := by
  intro s
  have hnumbered : Along (step (benchOptions .a)) Numbered (initialSession .a) benchTurns := by
    decide +kernel
  have hran : (s.io.sent.filter (fun unit => unit.type = .data)).map (·.packetId) =
        [1, 1, 2, 2] ∧
      s.io.accepted.map (fun a => (a.packetId, a.trafficClass)) =
        [(1, .ordinary), (2, .ordinary)] := by decide +kernel
  obtain ⟨hcut, -, horder⟩ := sent_run (benchOptions .a) benchTurns hnumbered
  exact ⟨hran.1, hran.2, hcut, horder⟩

end Fipwave.PacketOrder
