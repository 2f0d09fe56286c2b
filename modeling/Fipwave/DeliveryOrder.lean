import Fipwave.PacketDelivery

/-!
# Every packet once and in order

The channel keeps the order and repeats at most the unit taken last. An end
remembers a packet it has handed over; it may forget one only after it has
handed over others, and then the channel has left the fragments of the packet
behind. So within a session of the receiver no packet is handed over twice,
and those of one class come in the order in which the peer accepted them.
-/

namespace Fipwave.DeliveryOrder

open Relation TransitionRun LabelledStream ByteWords AcousticProtocol PacketFragments
  AcousticHandshake AcousticState AcousticDelivery AcousticSession AcousticLink DeliveryMachine
  DeliveryRefinement LinkSessions PacketAssembly PacketOrder PacketDelivery TurnToken

/-- What an end has handed over of the packets of its peer, after a number of units was taken off
the channel. -/
structure Passed (peer : Core) (taken : ℕ) (c : Core) : Prop where
  /-- Packets were handed over before now. -/
  generation : ∀ e ∈ c.packets, e.generation ≤ c.generation
  /-- A packet of the current session has passed the channel. -/
  met : ∀ e ∈ c.packets, e.generation = c.generation → Met packetOf peer.sent taken e.packetId
  /-- It is remembered, or the channel has left it behind. -/
  known : ∀ e ∈ c.packets, e.generation = c.generation →
    (∃ entry ∈ c.delivery.delivered, entry.1 = e.packetId) ∨
      Left packetOf peer.sent taken e.packetId
  /-- Packets of one session are different and in the order of the peer. -/
  order : c.packets.Pairwise
    (fun e f => e.generation = f.generation → Before peer.accepted e.packetId f.packetId)

/-- No delivered identifier has expired. -/
def Remembers (now : ℕ) (c : Core) : Prop := ∀ entry ∈ c.delivery.delivered, now ≤ entry.2

section Moves

variable {x : Context} {peer later c d : Core} {taken next : ℕ}

/-- Only the oldest identifiers are forgotten when one is remembered. -/
theorem mem_remember_sub {packetId expiresAt : ℕ} {delivered : List (ℕ × ℕ)} {entry : ℕ × ℕ}
    (h : entry ∈ remember packetId expiresAt delivered) :
    entry ∈ delivered ∨ entry = (packetId, expiresAt) := by
  unfold remember at h
  rcases List.mem_append.mp (List.mem_of_mem_drop h) with h | h
  · exact .inl h
  · exact .inr (List.mem_singleton.mp h)

/-- A move remembers what was delivered while it has not expired. -/
theorem remembers_move (h : Move x c d) (hc : Remembers x.now c) : Remembers x.now d := by
  cases h with
  | expireDelivered => exact fun entry hentry => hc entry (List.mem_of_mem_filter hentry)
  | reset =>
    intro entry hentry
    cases hentry
  | deliver =>
    intro entry hentry
    rcases mem_remember_sub hentry with hentry | rfl
    · exact hc entry hentry
    · exact Nat.le_add_right _ _
  | _ => exact hc

/-- Moves keep what was handed over in order, if what is received is the last unit taken. Only a
delivery adds to it, and its packet was not remembered as handed over. -/
theorem passed_move (h : Move x c d) (hremembers : Remembers x.now c)
    (hserial : Serial packetOf (Before peer.accepted) peer.sent)
    (hreceived : ∀ unit, x.received = some unit →
      ∃ index, taken = index + 1 ∧ peer.sent[index]? = some unit)
    (hc : Passed peer taken c) : Passed peer taken d := by
  cases h with
  | reset =>
    have hold : ∀ e ∈ c.packets, e.generation ≠ c.generation + 1 := by
      intro e he
      have hle := hc.generation e he
      omega
    exact ⟨fun e he => (hc.generation e he).trans (Nat.le_succ _),
      fun e he hsame => absurd hsame (hold e he), fun e he hsame => absurd hsame (hold e he),
      hc.order⟩
  | expireDelivered =>
    refine ⟨hc.generation, hc.met, fun e he hsame => ?_, hc.order⟩
    rcases hc.known e he hsame with ⟨entry, hentry, hid⟩ | hleft
    · refine .inl ⟨entry, ?_, hid⟩
      exact List.mem_filter.mpr ⟨hentry, decide_eq_true (hremembers entry hentry)⟩
    · exact .inr hleft
  | deliver _ unit payloadBytes inbound packet hassembles =>
    obtain ⟨index, rfl, hsent⟩ := hreceived unit hassembles.received
    have hat : At packetOf peer.sent index unit.packetId :=
      ⟨unit, hsent, packetOf_eq_some.mpr ⟨hassembles.type, rfl⟩⟩
    -- a packet of this session that was handed over is another one
    have hother : ∀ e ∈ c.packets, e.generation = c.generation → e.packetId ≠ unit.packetId := by
      intro e he hsame heq
      rcases hc.known e he hsame with ⟨entry, hentry, hid⟩ | hleft
      · exact hassembles.fresh entry hentry (hid.trans heq)
      · rw [heq] at hleft
        exact hleft.not_at hserial hat
    refine ⟨fun e he => ?_, fun e he hsame => ?_, fun e he hsame => ?_, ?_⟩
    · rcases List.mem_append.mp he with he | he
      · exact hc.generation e he
      · rw [List.mem_singleton.mp he]
    · rcases List.mem_append.mp he with he | he
      · exact hc.met e he hsame
      · rw [List.mem_singleton.mp he]
        exact ⟨index, Nat.lt_succ_self index, hat⟩
    · rcases List.mem_append.mp he with he | he
      · -- the packet may be forgotten now: then the channel has left it
        by_cases hkept : ∃ entry ∈ remember unit.packetId (x.now + maxPacketAgeMs)
            c.delivery.delivered, entry.1 = e.packetId
        · exact .inl hkept
        · exact .inr ((hc.met e he hsame).left hat (hother e he hsame).symm)
      · rw [List.mem_singleton.mp he]
        exact .inl ⟨_, mem_remember _ _ _, rfl⟩
    · refine List.pairwise_append.mpr ⟨hc.order, List.pairwise_singleton _ _, fun e he f hf => ?_⟩
      rw [List.mem_singleton.mp hf]
      intro hsame
      exact (hc.met e he hsame).precedes hserial hat (hother e he hsame)
  | _ => exact ⟨hc.generation, hc.met, hc.known, hc.order⟩

/-- Moves pass packets only in the order in which the peer took them. -/
theorem passed_moves (hmoves : Moves x c d) (hremembers : Remembers x.now c)
    (hserial : Serial packetOf (Before peer.accepted) peer.sent)
    (hreceived : ∀ unit, x.received = some unit →
      ∃ index, taken = index + 1 ∧ peer.sent[index]? = some unit)
    (hc : Passed peer taken c) : Passed peer taken d := by
  have h : Remembers x.now d ∧ Passed peer taken d := by
    induction hmoves with
    | refl => exact ⟨hremembers, hc⟩
    | tail _ hmove ih =>
      exact ⟨remembers_move hmove ih.1, passed_move hmove ih.1 hserial hreceived ih.2⟩
  exact h.2

/-- What the peer sends and accepts later, and what is taken off the channel, changes nothing. -/
theorem Passed.onward (hc : Passed peer taken c) (hsent : peer.sent <+: later.sent)
    (haccepted : peer.accepted <+: later.accepted) (htaken : taken ≤ next) :
    Passed later next c := by
  obtain ⟨units, hunits⟩ := hsent
  obtain ⟨records, hrecords⟩ := haccepted
  refine ⟨hc.generation, fun e he hsame => ?_, fun e he hsame => ?_, ?_⟩
  · rw [← hunits]
    exact ((hc.met e he hsame).append units).later htaken
  · rw [← hunits]
    exact (hc.known e he hsame).imp id (fun hleft => (hleft.append units).later htaken)
  · rw [← hrecords]
    exact hc.order.imp (fun hbefore hsame => (hbefore hsame).append)

end Moves

section Link

/-- The channel keeps the order, no counter comes round, and no end has forgotten a delivered
packet for its age. -/
def Regular (w : World) (event : Readings × LinkEvent) : Prop :=
  inOrder w event.2 ∧ NumberedEvent w event.2 ∧
    ∀ role ∈ (concerned event.2).toList, Remembers event.1.now (core (w.session.get role))

instance (now : ℕ) (c : Core) : Decidable (Remembers now c) :=
  inferInstanceAs (Decidable (∀ entry ∈ c.delivery.delivered, now ≤ entry.2))

instance (w : World) (event : Readings × LinkEvent) : Decidable (Regular w event) :=
  inferInstanceAs (Decidable (_ ∧ _ ∧ _))

variable {link : LinkOptions} {w : World} {event : Readings × LinkEvent} {role : AcousticRole}

/-- Units that were taken off a channel stay taken. -/
theorem taken_le (link : LinkOptions) (w : World) (event : Readings × LinkEvent)
    (role : AcousticRole) : w.taken.get role ≤ (linkStep link w event).taken.get role := by
  have htake : ∀ (sender : AcousticRole) (v : World), v.taken = w.taken →
      w.taken.get role ≤ (v.take sender).taken.get role := by
    intro sender v hv
    unfold World.take
    dsimp only
    rw [PerRole.get_set, hv]
    split
    · next heq =>
      rw [heq]
      exact Nat.le_succ _
    · exact le_rfl
  obtain ⟨readings, event⟩ := event
  cases event with
  | act acting action => exact le_rfl
  | deliver receiver =>
    unfold linkStep
    dsimp only
    split
    · exact le_rfl
    · exact htake _ _ rfl
  | lose receiver =>
    unfold linkStep
    dsimp only
    split
    · exact htake _ _ rfl
    · exact le_rfl
  | redeliver receiver index =>
    unfold linkStep
    dsimp only
    split <;> exact le_rfl

/-- In an orderly channel the unit that arrives is the last one that was taken. -/
theorem taken_of_arriving {index : ℕ} {unit : Fas1Unit} (horder : inOrder w event.2)
    (h : arriving w event.2 = some (role, index, unit)) :
    (linkStep link w event).taken.get (complement role) = index + 1 := by
  obtain ⟨readings, event⟩ := event
  cases event with
  | act | lose => cases h
  | deliver receiver =>
    simp only [arriving, Option.map_eq_some_iff, Prod.mk.injEq] at h
    obtain ⟨unit, hunit, rfl, rfl, rfl⟩ := h
    unfold linkStep
    dsimp only
    rw [hunit]
    exact PerRole.get_set_same _ _ _
  | redeliver receiver index =>
    simp only [arriving, Option.map_eq_some_iff, Prod.mk.injEq] at h
    obtain ⟨unit, hunit, rfl, rfl, rfl⟩ := h
    unfold linkStep
    dsimp only
    rw [hunit]
    exact horder.symm

/-- What holds of a link whose channel keeps the order. -/
structure InOrder (link : LinkOptions) (w : World) : Prop where
  /-- What is handed over was accepted. -/
  faithful : Faithful link w
  /-- It is handed over in order. -/
  passed : ∀ role, Passed (core (w.session.get (complement role)))
    (w.taken.get (complement role)) (core (w.session.get role))

/-- One step of the link keeps the packets in order. -/
theorem inOrder_step (link : LinkOptions) (w : World) (event : Readings × LinkEvent)
    (hregular : Regular w event) (h : InOrder link w) : InOrder link (linkStep link w event) := by
  obtain ⟨hchannel, hnumbered, hremembers⟩ := hregular
  refine ⟨faithful_step link w event hnumbered h.faithful, ?_⟩
  have htaken := taken_le link w event
  rcases linkStep_moves h.faithful.ends hnumbered with hsame | ⟨role, x, s, hset, hend⟩
  · intro role
    rw [hsame]
    exact (h.passed role).onward List.prefix_rfl List.prefix_rfl (htaken _)
  · obtain ⟨hconcerns, -, hmoves, rfl, hnow, -, -, -, hreceived⟩ := hend
    have hknows : Remembers x.now (core (w.session.get x.role)) := by
      rw [hnow]
      exact hremembers x.role (by rw [hconcerns]; exact List.mem_singleton_self _)
    have hself : Passed (core (w.session.get (complement x.role)))
        ((linkStep link w event).taken.get (complement x.role)) (core s) := by
      have hserial := (h.faithful.orderly (complement x.role)).transmits.serial
      refine passed_moves hmoves hknows hserial (fun unit hunit => ?_)
        ((h.passed x.role).onward List.prefix_rfl List.prefix_rfl (htaken _))
      obtain ⟨index, harriving⟩ := hreceived unit hunit
      exact ⟨index, taken_of_arriving hchannel harriving, arriving_sent harriving⟩
    have hother : Passed (core s) ((linkStep link w event).taken.get x.role)
        (core (w.session.get (complement x.role))) := by
      have hbefore := h.passed (complement x.role)
      rw [complement_complement] at hbefore
      obtain ⟨units, hunits, -⟩ := sent_moves hmoves
      exact hbefore.onward ⟨units, hunits.symm⟩ (accepted_moves hmoves) (htaken _)
    intro role
    rw [hset]
    by_cases hrole : role = x.role
    · subst hrole
      rw [PerRole.get_set_same, PerRole.get_set_complement]
      exact hself
    · have hcomplement : role = complement x.role := by
        cases role <;> cases hx : x.role <;> simp [hx, complement] at hrole ⊢
      rw [hcomplement, complement_complement, PerRole.get_set_same, PerRole.get_set_complement]
      exact hother

/-- Nothing is out of order at the start. -/
theorem inOrder_initial (link : LinkOptions) : InOrder link initialWorld := by
  refine ⟨faithful_initial link, fun role => ?_⟩
  constructor <;> cases role <;>
    simp [initialWorld, PerRole.get, core, initialSession, complement]

/-- Over a channel that keeps the order, loses any unit and repeats the unit taken last, in every
run that does not use up its packet identifiers and in which no end forgets a delivered packet for
its age: within one session of an end, no packet is handed over twice, and the packets of one class
are handed over in the order in which the peer accepted them. -/
theorem delivered_once (link : LinkOptions) (events : List (Readings × LinkEvent))
    (h : Along (linkStep link) Regular initialWorld events) (role : AcousticRole) :
    let peer := (runLink link events).session.get (complement role)
    peer.io.accepted.Pairwise (fun a b => a.packetId < b.packetId) ∧
      ((runLink link events).session.get role).io.packets.Pairwise (fun e f =>
        e.generation = f.generation → e.packetId ≠ f.packetId ∧
          ∀ a ∈ peer.io.accepted, ∀ b ∈ peer.io.accepted, a.packetId = e.packetId →
            b.packetId = f.packetId → a.trafficClass = b.trafficClass →
            e.packetId < f.packetId) := by
  intro peer
  have hrun : InOrder link (runLink link events) :=
    invariant_along (linkStep link) (inOrder_step link) (inOrder_initial link) h
  have hnumbers := (hrun.faithful.orderly (complement role)).queued.numbers
  refine ⟨hnumbers, (hrun.passed role).order.imp (fun {e f} hbefore hsame => ?_)⟩
  obtain ⟨hne, a, ha, b, hb, hae, hbf, hlt⟩ := hbefore hsame
  refine ⟨hne, fun a' ha' b' hb' hae' hbf' hclass => ?_⟩
  have hsameA : a' = a := accepted_unique hnumbers ha' ha (hae'.trans hae.symm)
  have hsameB : b' = b := accepted_unique hnumbers hb' hb (hbf'.trans hbf.symm)
  rw [hsameA, hsameB] at hclass
  exact hlt hclass

/-- Two packets of A; the fragment of the first one comes twice. -/
def benchTwice : List (Readings × LinkEvent) :=
  benchEstablish ++ [benchAct .a (.enqueuePacket [7] .ordinary),
    benchAct .a (.enqueuePacket [9] .ordinary), benchDeliver .b,
    (benchReadings .b, .redeliver .b 6), benchDeliver .b, benchDeliver .a, benchDeliver .b,
    benchAct .b (.fire .deliveryTimer), benchDeliver .a, benchAct .a (.fire .deliveryTimer),
    benchDeliver .b, benchDeliver .b]

set_option maxRecDepth 8000 in
/-- B hands each of them over once, in their order. -/
theorem delivered_once_bench :
    (runLink benchLink benchTwice).session.b.io.packets.map (·.packet) = [[7], [9]] ∧
      (runLink benchLink benchTwice).session.b.io.packets.Pairwise (fun e f =>
        e.generation = f.generation → e.packetId ≠ f.packetId) := by
  have hregular : Along (linkStep benchLink) Regular initialWorld benchTwice := by decide +kernel
  have hpackets : (runLink benchLink benchTwice).session.b.io.packets.map (·.packet) =
      [[7], [9]] := by decide +kernel
  have h := (delivered_once benchLink benchTwice hregular .b).2
  exact ⟨hpackets, h.imp (fun {e f} hordered hsame => (hordered hsame).1)⟩

end Link

end Fipwave.DeliveryOrder
