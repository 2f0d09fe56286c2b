import Fipwave.EnqueueTotality
import Fipwave.DeliveryOrder

/-!
# No acknowledgement without delivery

An ACK names fragments by a bitmap, and its sender has every fragment it names:
it holds it in its assembly or has handed the packet over. As long as an
assembly is not dropped for its age and no end takes up a session again, the
bitmaps of a packet that was not handed over all leave out one fragment. An
end that has every fragment acknowledged has therefore had its packet handed
over, whatever the channel loses, repeats or reorders.
-/

namespace Fipwave.AckSoundness

open Relation TransitionRun LabelledStream ByteWords ScriptIntegers AcousticProtocol PacketFragments
  AcousticHandshake AcousticState AcousticDelivery AcousticSession AcousticLink DeliveryMachine
  DeliveryRefinement LinkSessions EnqueueTotality PacketAssembly PacketOrder PacketDelivery
  DeliveryOrder TurnToken

section Bitmaps

/-- The bitmap of a list of fragments has the bit of each, and no other. -/
theorem testBit_foldl_bitmap (fragments : List Fas1Unit) (start i : ℕ) :
    (fragments.foldl (fun bitmap fragment => bitmap ||| 2 ^ fragment.fragmentIndex) start).testBit i =
      (start.testBit i || fragments.any (fun fragment => fragment.fragmentIndex = i)) := by
  induction fragments generalizing start with
  | nil => simp
  | cons fragment fragments ih =>
    rw [List.foldl_cons, ih, Nat.testBit_or, Nat.testBit_two_pow, List.any_cons, Bool.or_assoc]

/-- The bits of the bitmap of an assembly are the indices it holds. -/
theorem testBit_bitmapOf (inbound : InboundAssembly) (i : ℕ) :
    (bitmapOf inbound.fragments).testBit i = holdsIndex inbound i := by
  unfold bitmapOf holdsIndex
  rw [testBit_foldl_bitmap, Nat.zero_testBit, Bool.false_or]

/-- A complete acknowledgement has every bit. -/
theorem testBit_fullMask {count i : ℕ} (hi : i < count) : (fullMask count).testBit i = true := by
  unfold fullMask
  rw [Nat.testBit_two_pow_sub_one]
  exact decide_eq_true hi

end Bitmaps

/-- A packet was handed over under the identifier. -/
def HandedOver (c : Core) (packetId : ℕ) : Prop := ∃ e ∈ c.packets, e.packetId = packetId

/-- An end has a fragment: its packet was handed over, or the assembly holds it. -/
def Has (c : Core) (packetId index : ℕ) : Prop :=
  HandedOver c packetId ∨ ∃ inbound, c.delivery.inbound = some inbound ∧
    inbound.packetId = packetId ∧ holdsIndex inbound index = true

/-- The assembly has not expired. -/
def Lasts (now : ℕ) (c : Core) : Prop :=
  ∀ inbound, c.delivery.inbound = some inbound → now ≤ inbound.expiresAt

/-- Every bit of the ACKs of the current session is of a fragment that the end has. -/
def Said (c : Core) : Prop :=
  ∀ unit ∈ c.sent, unit.type = .ack → c.sessionId = some unit.sessionId →
    ∀ i, unit.sequence.testBit i = true → Has c unit.packetId i

/-- What holds of the acknowledgement an end owes. -/
structure Owes (role : AcousticRole) (c : Core) : Prop where
  /-- Identifiers that are remembered were handed over. -/
  delivered : ∀ entry ∈ c.delivery.delivered, HandedOver c entry.1
  /-- At rest there is no session and nothing is owed. -/
  resting : c.state = restState role → c.sessionId = none ∧ c.delivery.lastAck = none
  /-- What is owed is of fragments that the end has. -/
  owed : ∀ ack, c.delivery.lastAck = some ack →
    ∀ i, ack.bitmap.testBit i = true → Has c ack.packetId i

section Receiver

variable {x : Context} {role : AcousticRole} {peer c d : Core} {unit : Fas1Unit} {payloadBytes : ℕ}

/-- A burst says nothing. -/
theorem burst_type {pending : PendingPacket} {turnEnd : Fas1Unit} {count : ℕ}
    (hq : Queued role c) (hactive : c.delivery.active = some pending)
    (htype : turnEnd.type = .turnEnd)
    (hunit : unit ∈ (missingFragments pending ++ [turnEnd]).take count) : unit.type ≠ .ack := by
  rcases List.mem_append.mp (List.mem_of_mem_take hunit) with hunit | hunit
  · obtain ⟨sessionId, -, -, hcut⟩ := hq.recorded pending (mem_pendingOf.mpr (.inl hactive))
    have hfragment := List.mem_of_mem_filter (List.mem_of_mem_take hunit)
    rw [(packetOf_eq_some.mp (fragment_of_cut hcut hfragment).1).1]
    decide
  · rw [List.mem_singleton.mp hunit, htype]
    decide

/-- Handshake, calibration and commit say nothing. -/
theorem negotiating_silent {type : Fas1UnitType} (h : Negotiating role type) : type ≠ .ack := by
  rintro rfl
  rcases h with h | ⟨h, -⟩
  · simp at h
  · cases h

/-- A packet handed over stays handed over. -/
theorem HandedOver.append {packetId : ℕ} {packets : List DeliveredPacket}
    (h : HandedOver c packetId) (hd : d.packets = c.packets ++ packets) : HandedOver d packetId := by
  obtain ⟨e, he, hid⟩ := h
  exact ⟨e, by rw [hd]; exact List.mem_append_left _ he, hid⟩

/-- A change that keeps the assembly and what was handed over keeps what an end has. -/
theorem Has.of_eq {packetId index : ℕ} (h : Has c packetId index) (hpackets : d.packets = c.packets)
    (hinbound : d.delivery.inbound = c.delivery.inbound) : Has d packetId index := by
  unfold Has HandedOver at h ⊢
  rwa [hpackets, hinbound]

/-- Storing a fragment keeps what an end has. -/
theorem Has.store {packetId index : ℕ} (h : Has c packetId index)
    (hpackets : d.packets = c.packets)
    (hinbound : d.delivery.inbound = some (assemblyAfter x.now unit c.delivery)) :
    Has d packetId index := by
  rcases h with ⟨e, he, hid⟩ | ⟨inbound, hheld, hid, hindex⟩
  · exact .inl ⟨e, hpackets ▸ he, hid⟩
  · refine .inr ⟨_, hinbound, ?_, ?_⟩
    · unfold assemblyAfter
      rw [(withFragment_fields _ _).1, hheld]
      exact hid
    · unfold assemblyAfter
      rw [holdsIndex_withFragment, hheld]
      exact Bool.or_eq_true_iff.mpr (.inl hindex)

/-- The assembly a fragment is stored in is of its packet. -/
theorem packetId_after (hagrees : ∀ existing, c.delivery.inbound = some existing →
    conflicts unit existing = false) :
    (assemblyAfter x.now unit c.delivery).packetId = unit.packetId := by
  unfold assemblyAfter
  rw [(withFragment_fields _ _).1]
  cases hinbound : c.delivery.inbound with
  | none => rfl
  | some existing => exact (agrees_iff.mp (hagrees existing hinbound)).1

/-- Delivering a packet keeps what an end has. -/
theorem Has.deliver {packetId index : ℕ} {e : DeliveredPacket} (h : Has c packetId index)
    (hagrees : ∀ existing, c.delivery.inbound = some existing → conflicts unit existing = false)
    (hpackets : d.packets = c.packets ++ [e]) (he : e.packetId = unit.packetId) :
    Has d packetId index := by
  rcases h with h | ⟨inbound, hheld, hid, -⟩
  · exact .inl (h.append hpackets)
  · refine .inl ⟨e, by rw [hpackets]; exact List.mem_append_right _ (List.mem_singleton_self _), ?_⟩
    rw [he, ← hid]
    exact (agrees_iff.mp (hagrees inbound hheld)).1.symm

/-- What lasts until the clock lasts through a move. -/
theorem lasts_move (h : Move x c d) (hc : Lasts x.now c) : Lasts x.now d := by
  have hafter : ∀ unit, x.now ≤ (assemblyAfter x.now unit c.delivery).expiresAt := by
    intro unit
    unfold assemblyAfter
    rw [(withFragment_fields _ _).2.2.2]
    cases hinbound : c.delivery.inbound with
    | none => exact Nat.le_add_right _ _
    | some existing => exact hc existing hinbound
  cases h with
  | reset | expireInbound | failAssembly | deliver =>
    intro other hother
    cases hother
  | storeData _ unit payloadBytes inbound hassembles hinbound =>
    intro other hother
    rw [← Option.some.inj hother, hinbound]
    exact hafter unit
  | holdAssembly _ unit payloadBytes inbound packet hassembles hinbound =>
    intro other hother
    rw [← Option.some.inj hother, hinbound]
    exact hafter unit
  | _ => exact hc

/-- Apart from a reset, moves keep what an end has, as long as its assembly lasts. -/
theorem has_move (h : Move x c d) (hs : SlotState x.role c)
    (hwf : ∀ unit, x.received = some unit → unit.WellFormed) (hlasts : Lasts x.now c)
    (hgeneration : d.generation = c.generation) {packetId index : ℕ} (hc : Has c packetId index) :
    Has d packetId index := by
  cases h with
  | reset =>
    have hnext : c.generation + 1 = c.generation := hgeneration
    omega
  | expireInbound _ inbound hinbound hexpired =>
    have hle := hlasts inbound hinbound
    omega
  | storeData _ unit payloadBytes inbound hassembles hinbound =>
    exact hc.store rfl (congrArg some hinbound)
  | holdAssembly _ unit payloadBytes inbound packet hassembles hinbound =>
    exact hc.store rfl (congrArg some hinbound)
  | failAssembly _ unit payloadBytes inbound message hassembles hinbound hcomplete hresult =>
    have hok := (reassemble_after hassembles (hwf unit hassembles.received) hs hinbound hcomplete).1
    rw [hresult] at hok
    cases hok
  | deliver _ unit payloadBytes inbound packet hassembles => exact hc.deliver hassembles.agrees rfl rfl
  | _ => exact hc.of_eq rfl rfl

/-- Moves keep what is owed in order. A move keeps the pending ACK, spends it, or puts one up for
the fragment it received. -/
theorem owes_move (h : Move x c d) (hs : SlotState x.role c)
    (hwf : ∀ unit, x.received = some unit → unit.WellFormed) (hlasts : Lasts x.now c)
    (hc : Owes x.role c) : Owes x.role d := by
  have hkeep : d.generation = c.generation → d.delivery.lastAck = c.delivery.lastAck →
      ∀ ack, d.delivery.lastAck = some ack →
        ∀ i, ack.bitmap.testBit i = true → Has d ack.packetId i := by
    intro hgeneration hlast ack hack i hi
    rw [hlast] at hack
    exact has_move h hs hwf hlasts hgeneration (hc.owed ack hack i hi)
  have hawake : ∀ {state : AcousticSessionState}, Established state → state = restState x.role →
      d.sessionId = none ∧ d.delivery.lastAck = none :=
    fun hestablished hrest => absurd hestablished (not_established_of_rest hrest)
  have hready : ∀ {state : AcousticSessionState}, state = .ready → Established state := by
    rintro _ rfl
    simp [Established]
  have hstored : ∀ {inbound : InboundAssembly} {unit : Fas1Unit} {payloadBytes : ℕ},
      Assembles x c unit payloadBytes → inbound = assemblyAfter x.now unit c.delivery →
      d.delivery.inbound = some inbound →
      ∀ i, (bitmapOf inbound.fragments).testBit i = true → Has d unit.packetId i := by
    intro inbound unit payloadBytes hassembles hinbound hslot i hi
    rw [testBit_bitmapOf] at hi
    refine .inr ⟨inbound, hslot, ?_, hi⟩
    rw [hinbound]
    exact packetId_after hassembles.agrees
  have hdelivered := hc.delivered
  cases h with
  | negotiate _ units state hunits hwf hstate =>
    refine ⟨hdelivered, fun hrest => ?_, hkeep rfl rfl⟩
    rcases hstate with heq | heq | ⟨-, hearly⟩
    · exact hc.resting (heq.symm.trans hrest)
    · exact hawake (by rw [heq]; simp [Established]) hrest
    · exact absurd hrest (early_ne_rest hearly)
  | openSession _ sessionId state hrest hearly =>
    exact ⟨hdelivered, fun heq => absurd heq (early_ne_rest hearly), hkeep rfl rfl⟩
  | reset =>
    refine ⟨fun entry hentry => ?_, fun _ => ⟨rfl, rfl⟩, fun ack hack => ?_⟩
    · cases hentry
    · cases hack
  | expireDelivered =>
    exact ⟨fun entry hentry => hdelivered entry (List.mem_of_mem_filter hentry), hc.resting,
      hkeep rfl rfl⟩
  | commitToken | degrade | recover | resync | unansweredResync =>
    exact ⟨hdelivered, hawake (by simp [Established]), hkeep rfl rfl⟩
  | repeatedData _ unit hunit htype hstate hsession howner hknown =>
    refine ⟨hdelivered, hawake (hready hstate), fun ack hack i _ => ?_⟩
    obtain ⟨entry, hentry, hid⟩ := hknown
    rw [← Option.some.inj hack]
    rw [← hid]
    exact .inl (hdelivered entry hentry)
  | storeData _ unit payloadBytes inbound hassembles hinbound =>
    refine ⟨hdelivered, hawake (hready hassembles.state), fun ack hack => ?_⟩
    rw [← Option.some.inj hack]
    exact hstored hassembles hinbound rfl
  | holdAssembly _ unit payloadBytes inbound packet hassembles hinbound =>
    refine ⟨hdelivered, hawake (hready hassembles.state), fun ack hack => ?_⟩
    rw [← Option.some.inj hack]
    exact hstored hassembles hinbound rfl
  | failAssembly _ unit payloadBytes inbound message hassembles hinbound hcomplete hresult =>
    have hok := (reassemble_after hassembles (hwf unit hassembles.received) hs hinbound hcomplete).1
    rw [hresult] at hok
    cases hok
  | deliver _ unit payloadBytes inbound packet hassembles =>
    refine ⟨fun entry hentry => ?_, hawake (hready hassembles.state), fun ack hack i _ => ?_⟩
    · have hnew : HandedOver { c with
          delivery.inbound := none
          delivery.lastAck := some ⟨unit.packetId, bitmapOf inbound.fragments⟩
          delivery.delivered := remember unit.packetId (x.now + maxPacketAgeMs) c.delivery.delivered
          packets := c.packets ++ [⟨c.generation, unit.sessionId, unit.packetId, packet⟩] }
          unit.packetId := ⟨_, List.mem_append_right _ (List.mem_singleton_self _), rfl⟩
      rcases mem_remember_sub hentry with hentry | rfl
      · exact (hdelivered entry hentry).append rfl
      · exact hnew
    · rw [← Option.some.inj hack]
      exact .inl ⟨_, List.mem_append_right _ (List.mem_singleton_self _), rfl⟩
  | replyAck _ unit ackUnit ack count hunit htype hstate =>
    refine ⟨hdelivered, hawake (hready hstate), fun other hother => ?_⟩
    cases hother
  | _ => exact ⟨hdelivered, hc.resting, hkeep rfl rfl⟩

/-- What a step of an end says, from the core it met on. -/
structure Says (c : Core) (d : Core) : Prop where
  /-- Generations go up. -/
  generation : c.generation ≤ d.generation
  /-- Without a reset a session is kept, or taken up from none. -/
  session : d.generation = c.generation → d.sessionId = c.sessionId ∨ c.sessionId = none
  /-- In the same session, what was said is true. -/
  said : d.generation = c.generation → d.sessionId = c.sessionId → Said d
  /-- What is said is said in the session that the step met. -/
  fresh : ∀ unit ∈ d.sent, unit.type = .ack →
    unit ∈ c.sent ∨ c.sessionId = some unit.sessionId
  /-- A session that was left or taken up is not established. -/
  apart : ¬(d.generation = c.generation ∧ d.sessionId = c.sessionId) →
    d.state ≠ .ready ∧ d.state ≠ .awaitingHeartbeat

/-- What was said stays true if nothing is said. -/
theorem said_of_silent {units : List Fas1Unit} (hc : Said c) (hsent : d.sent = c.sent ++ units)
    (hsilent : ∀ unit ∈ units, unit.type ≠ .ack) (hsession : d.sessionId = c.sessionId)
    (hhas : ∀ packetId index, Has c packetId index → Has d packetId index) : Said d := by
  intro unit hunit htype hsame i hi
  rw [hsent] at hunit
  rw [hsession] at hsame
  rcases List.mem_append.mp hunit with hunit | hunit
  · exact hhas _ _ (hc unit hunit htype hsame i hi)
  · exact absurd htype (hsilent unit hunit)

/-- A move that neither says anything nor leaves or takes up a session. -/
theorem says_silent {start : Core} {units : List Fas1Unit} (hc : Says start c)
    (hsent : d.sent = c.sent ++ units) (hsilent : ∀ unit ∈ units, unit.type ≠ .ack)
    (hsession : d.sessionId = c.sessionId) (hgeneration : d.generation = c.generation)
    (hstate : d.state = c.state ∨ (d.state ≠ .ready ∧ d.state ≠ .awaitingHeartbeat) ∨
      c.generation = start.generation ∧ c.sessionId = start.sessionId)
    (hhas : ∀ packetId index, Has c packetId index → Has d packetId index) : Says start d := by
  refine ⟨?_, ?_, ?_, fun unit hunit htype => ?_, ?_⟩
  · rw [hgeneration]
    exact hc.generation
  · rw [hgeneration, hsession]
    exact hc.session
  · intro hsame heq
    rw [hgeneration] at hsame
    rw [hsession] at heq
    exact said_of_silent (hc.said hsame heq) hsent hsilent hsession hhas
  · rw [hsent] at hunit
    rcases List.mem_append.mp hunit with hunit | hunit
    · exact hc.fresh unit hunit htype
    · exact absurd htype (hsilent unit hunit)
  · intro hdiffers
    rw [hgeneration, hsession] at hdiffers
    obtain ⟨hnotReady, hnotAwaiting⟩ := hc.apart hdiffers
    rcases hstate with heq | hother | hsame
    · rw [heq]
      exact ⟨hnotReady, hnotAwaiting⟩
    · exact hother
    · exact absurd hsame hdiffers

/-- A session that is ready or awaits a heartbeat is the one the step met. -/
theorem Says.same {start : Core} (hc : Says start c)
    (hstate : c.state = .ready ∨ c.state = .awaitingHeartbeat) :
    c.generation = start.generation ∧ c.sessionId = start.sessionId := by
  by_contra hdiffers
  obtain ⟨hnotReady, hnotAwaiting⟩ := hc.apart hdiffers
  exact hstate.elim hnotReady hnotAwaiting

/-- Moves say nothing but what is true. Only the answer to a TURN_END sends an ACK, and what that
one says was owed. -/
theorem says_move (h : Move x c d) (hq : Queued x.role c) (hs : SlotState x.role c)
    (hwf : ∀ unit, x.received = some unit → unit.WellFormed) (hlasts : Lasts x.now c)
    (howes : Owes x.role c) (hc : Says x.start c) : Says x.start d := by
  have hhas : d.generation = c.generation →
      ∀ packetId index, Has c packetId index → Has d packetId index :=
    fun hsame _ _ => has_move h hs hwf hlasts hsame
  have hnone : c.sent = c.sent ++ [] := (List.append_nil _).symm
  cases h with
  | negotiate _ units state hunits _ hstate =>
    refine says_silent hc rfl (fun unit hunit => negotiating_silent (hunits unit hunit)) rfl rfl ?_
      (hhas rfl)
    rcases hstate with heq | heq | ⟨-, hearly⟩
    · exact .inl heq
    · exact .inr (.inl (by rw [heq]; simp))
    · refine .inr (.inl ⟨?_, ?_⟩) <;> rintro rfl <;> simp [Early] at hearly
  | openSession _ sessionId state hrest hearly =>
    have hnotReady : state ≠ .ready ∧ state ≠ .awaitingHeartbeat := by
      refine ⟨?_, ?_⟩ <;> rintro rfl <;> simp [Early] at hearly
    have hempty : c.generation = x.start.generation → x.start.sessionId = none := by
      intro hsame
      rcases hc.session hsame with heq | heq
      · rw [← heq]
        exact (howes.resting hrest).1
      · exact heq
    refine ⟨hc.generation, fun hsame => .inr (hempty hsame), fun hsame heq => ?_, hc.fresh,
      fun _ => hnotReady⟩
    rw [hempty hsame] at heq
    cases heq
  | reset =>
    have hnext : x.start.generation < c.generation + 1 := Nat.lt_succ_of_le hc.generation
    refine ⟨hnext.le, fun hsame => ?_, fun hsame => ?_, hc.fresh, fun _ => ?_⟩
    · have heq : c.generation + 1 = x.start.generation := hsame
      omega
    · have heq : c.generation + 1 = x.start.generation := hsame
      omega
    · cases x.role <;> simp [resetCore, restState]
  | closeTurn _ beats turnEnd hbeats htype =>
    refine says_silent hc (List.append_assoc _ _ _) (fun unit hunit => ?_) rfl rfl (.inl rfl)
      (hhas rfl)
    rcases List.mem_append.mp hunit with hunit | hunit
    · rw [hbeats unit hunit]
      decide
    · rw [List.mem_singleton.mp hunit, htype]
      decide
  | unclosedHeartbeat _ beat htype =>
    refine says_silent hc rfl (fun unit hunit => ?_) rfl rfl (.inl rfl) (hhas rfl)
    rw [List.mem_singleton.mp hunit, htype]
    decide
  | burst _ pending turnEnd count hstate howner hactive hawaiting hmissing htype =>
    exact says_silent hc rfl (fun unit hunit => burst_type hq hactive htype hunit) rfl rfl (.inl rfl)
      (hhas rfl)
  | replyAck _ unit ackUnit ack count hunit htype hstate hsession howner hack hackType hackSession
      hackPacket hackBitmap =>
    obtain ⟨hgeneration, hsame⟩ := hc.same (.inl hstate)
    have hnew : ∀ other ∈ [ackUnit].take count, other = ackUnit :=
      fun other hother => List.mem_singleton.mp (List.mem_of_mem_take hother)
    refine ⟨hc.generation, hc.session, fun _ _ other hother hotherType hotherSession i hi => ?_,
      fun other hother hotherType => ?_, fun hdiffers => absurd ⟨hgeneration, hsame⟩ hdiffers⟩
    · rcases List.mem_append.mp hother with hother | hother
      · exact (hc.said hgeneration hsame other hother hotherType hotherSession i hi).of_eq rfl rfl
      · rw [hnew other hother, hackBitmap] at hi
        rw [hnew other hother, hackPacket]
        exact (howes.owed ack hack i hi).of_eq rfl rfl
    · rcases List.mem_append.mp hother with hother | hother
      · exact hc.fresh other hother hotherType
      · rw [hnew other hother, hackSession, ← hsame]
        exact .inr hsession
  | resync unit units timer hunit htype hsession hstate hunits =>
    refine says_silent hc rfl (fun other hother => ?_) rfl rfl (.inr (.inr ⟨rfl, rfl⟩)) (hhas rfl)
    rw [(hunits other hother).1]
    decide
  | recoveryReply _ timer sessionId units htimer htask hunits =>
    refine says_silent hc rfl (fun unit hunit => ?_) rfl rfl (.inl rfl) (hhas rfl)
    rw [hunits unit hunit]
    decide
  | commitToken =>
    exact says_silent hc hnone (by simp) rfl rfl (.inr (.inr ⟨rfl, rfl⟩)) (hhas rfl)
  | degrade | recover =>
    exact says_silent hc hnone (by simp) rfl rfl (.inr (.inl (by simp))) (hhas rfl)
  | unansweredResync _ unit hunit hrole hstate =>
    exact says_silent hc hnone (by simp) rfl rfl (.inr (.inr (hc.same (.inr hstate)))) (hhas rfl)
  | _ => exact says_silent hc hnone (by simp) rfl rfl (.inl rfl) (hhas rfl)

end Receiver

/-- What the ACKs of an end say of the packets of its peer. -/
structure Covers (peer c : Core) : Prop where
  /-- An ACK answers a fragment of its session. -/
  sent : ∀ unit ∈ c.sent, unit.type = .ack →
    ∃ fragment ∈ peer.sent, packetOf fragment = some unit.packetId ∧
      fragment.sessionId = unit.sessionId
  /-- So does what is owed. -/
  owed : ∀ ack, c.delivery.lastAck = some ack →
    ∃ fragment ∈ peer.sent, packetOf fragment = some ack.packetId ∧
      c.sessionId = some fragment.sessionId
  /-- Unless the packet being sent was handed over, all its ACKs leave out one fragment. -/
  missing : ∀ pending, peer.delivery.active = some pending →
    HandedOver c pending.packetId ∨ ∃ index < pending.fragments.length,
      ∀ unit ∈ c.sent, unit.type = .ack → unit.packetId = pending.packetId →
        unit.sequence.testBit index = false
  /-- What counts as acknowledged was acknowledged. -/
  heard : ∀ pending, peer.delivery.active = some pending →
    ∀ i, pending.acknowledged.testBit i = true → ∃ unit ∈ c.sent, unit.type = .ack ∧
      unit.packetId = pending.packetId ∧ unit.sequence.testBit i = true
  /-- Packets that are fully acknowledged were accepted, and handed over. -/
  done : ∀ a ∈ peer.acknowledged, a ∈ peer.accepted ∧ HandedOver c a.packetId

section Covers

variable {x : Context} {role : AcousticRole} {peer later c d : Core} {unit : Fas1Unit}

/-- An assembly that is incomplete leaves out an index. -/
theorem exists_unheld {inbound : InboundAssembly}
    (hincomplete : inbound.fragments.length < inbound.fragmentCount) :
    ∃ index < inbound.fragmentCount, holdsIndex inbound index = false := by
  by_contra hall
  push Not at hall
  have hsubset : Finset.range inbound.fragmentCount ⊆
      (inbound.fragments.map (·.fragmentIndex)).toFinset := by
    intro index hindex
    have hheld := hall index (Finset.mem_range.mp hindex)
    simp only [holdsIndex, ne_eq, Bool.not_eq_false, List.any_eq_true, decide_eq_true_eq] at hheld
    rw [List.mem_toFinset, List.mem_map]
    exact hheld
  have hcard := Finset.card_le_card hsubset
  have hlength := List.toFinset_card_le (inbound.fragments.map (·.fragmentIndex))
  rw [Finset.card_range] at hcard
  rw [List.length_map] at hlength
  omega

/-- Every fragment under the identifier of the packet being sent tells its number of fragments. -/
theorem count_of_own {pending : PendingPacket} (hq : Queued role peer) (ht : Transmits peer)
    (hactive : peer.delivery.active = some pending) (hunit : unit ∈ peer.sent)
    (hlabel : packetOf unit = some pending.packetId) :
    unit.fragmentCount = pending.fragments.length ∧ peer.sessionId = some unit.sessionId := by
  obtain ⟨sessionId, hsession, -, hcut⟩ := hq.recorded pending (mem_pendingOf.mpr (.inl hactive))
  have hmem := ht.own pending hactive unit hunit hlabel
  refine ⟨?_, ?_⟩
  · obtain ⟨input, hfragments, -⟩ := hcut
    have hlist := (fragmentPacket_ok hfragments).2
    rw [hlist, List.mem_map] at hmem
    obtain ⟨index, -, rfl⟩ := hmem
    rw [hlist, List.length_map, List.length_range]
    rfl
  · rw [hsession, (fragment_of_cut hcut hmem).2]

/-- The assembly of the packet being sent leaves out one of its fragments. -/
theorem missing_of_assembly {pending : PendingPacket} {inbound : InboundAssembly}
    (hq : Queued role peer) (ht : Transmits peer) (hactive : peer.delivery.active = some pending)
    (hs : SlotState x.role c) (hg : Genuine (traffic peer) c) (hinbound : c.delivery.inbound = some inbound)
    (hid : inbound.packetId = pending.packetId) :
    ∃ index < pending.fragments.length, holdsIndex inbound index = false := by
  have hassembling := hs.slot inbound hinbound
  obtain ⟨_, _, -, -, hcollects⟩ := hassembling.collects
  obtain ⟨first, hfirst⟩ := List.exists_mem_of_ne_nil _ hcollects.nonempty
  have hfits := hcollects.fits first hfirst
  have hlabel : packetOf first = some pending.packetId := by
    rw [← hid]
    exact packetOf_eq_some.mpr ⟨hfits.type, hfits.packetId⟩
  have hcount := (count_of_own hq ht hactive (hg.held inbound hinbound first hfirst) hlabel).1
  rw [hfits.fragmentCount, ← hcollects.fragmentCount] at hcount
  obtain ⟨index, hindex, hunheld⟩ := exists_unheld hassembling.incomplete
  exact ⟨index, by omega, hunheld⟩

/-- A receiver that says nothing keeps what its ACKs say. -/
theorem covers_silent {units : List Fas1Unit} {packets : List DeliveredPacket} (hc : Covers peer c)
    (hsent : d.sent = c.sent ++ units) (hsilent : ∀ unit ∈ units, unit.type ≠ .ack)
    (hpackets : d.packets = c.packets ++ packets)
    (howed : ∀ ack, d.delivery.lastAck = some ack →
      ∃ fragment ∈ peer.sent, packetOf fragment = some ack.packetId ∧
        d.sessionId = some fragment.sessionId) : Covers peer d := by
  have hback : ∀ unit ∈ d.sent, unit.type = .ack → unit ∈ c.sent := by
    intro unit hunit htype
    rw [hsent] at hunit
    rcases List.mem_append.mp hunit with hunit | hunit
    · exact hunit
    · exact absurd htype (hsilent unit hunit)
  refine ⟨fun unit hunit htype => hc.sent unit (hback unit hunit htype) htype, howed,
    fun pending hactive => ?_, fun pending hactive i hi => ?_, fun a ha => ?_⟩
  · rcases hc.missing pending hactive with hdone | ⟨index, hindex, hleft⟩
    · exact .inl (hdone.append hpackets)
    · exact .inr ⟨index, hindex, fun unit hunit htype => hleft unit (hback unit hunit htype) htype⟩
  · obtain ⟨unit, hunit, hrest⟩ := hc.heard pending hactive i hi
    exact ⟨unit, by rw [hsent]; exact List.mem_append_left _ hunit, hrest⟩
  · exact ⟨(hc.done a ha).1, (hc.done a ha).2.append hpackets⟩

/-- An ACK that is sent leaves out a fragment of the packet being sent, unless it was handed
over. -/
theorem covers_reply {ackUnit : Fas1Unit} {ack : LastAck} {count : ℕ} (hq : Queued role peer)
    (ht : Transmits peer) (hs : SlotState x.role c) (hg : Genuine (traffic peer) c)
    (howes : Owes x.role c) (hsaid : Said c) (hsession : c.sessionId = some unit.sessionId)
    (hack : c.delivery.lastAck = some ack)
    (hackSession : ackUnit.sessionId = unit.sessionId) (hackPacket : ackUnit.packetId = ack.packetId)
    (hackBitmap : ackUnit.sequence = ack.bitmap) (hc : Covers peer c) :
    Covers peer { c with
      delivery.lastAck := none
      delivery.turnOwner := some (complement x.role)
      sent := c.sent ++ [ackUnit].take count } := by
  have hnew : ∀ other ∈ [ackUnit].take count, other = ackUnit :=
    fun other hother => List.mem_singleton.mp (List.mem_of_mem_take hother)
  obtain ⟨answered, hanswered, hlabel, hcurrent⟩ := hc.owed ack hack
  refine ⟨fun other hother htype => ?_, fun other hother => (by cases hother),
    fun pending hactive => ?_, fun pending hactive i hi => ?_, hc.done⟩
  · rcases List.mem_append.mp hother with hother | hother
    · exact hc.sent other hother htype
    · rw [hnew other hother, hackPacket, hackSession]
      exact ⟨answered, hanswered, hlabel, Option.some.inj (hcurrent.symm.trans hsession)⟩
  · by_cases hdone : HandedOver c pending.packetId
    · exact .inl hdone
    by_cases hspoken : ack.packetId = pending.packetId ∧ ∃ i, ack.bitmap.testBit i = true
    · obtain ⟨hid, i, hi⟩ := hspoken
      -- the assembly is of the packet being sent, and holds all that its ACKs name
      have hheld : ∀ index, Has c pending.packetId index → ∃ inbound,
          c.delivery.inbound = some inbound ∧ inbound.packetId = pending.packetId ∧
            holdsIndex inbound index = true := fun index hhas => hhas.resolve_left hdone
      have howed := howes.owed ack hack
      rw [hid] at howed hlabel
      obtain ⟨inbound, hinbound, hpacket, -⟩ := hheld i (howed i hi)
      obtain ⟨index, hindex, hunheld⟩ := missing_of_assembly hq ht hactive hs hg hinbound hpacket
      have hlacks : ¬Has c pending.packetId index := by
        intro hhas
        obtain ⟨other, hother, -, hyes⟩ := hheld index hhas
        have hsame : other = inbound := Option.some.inj (hother.symm.trans hinbound)
        rw [hsame, hunheld] at hyes
        cases hyes
      refine .inr ⟨index, hindex, fun other hother htype hotherId => ?_⟩
      refine Bool.eq_false_iff.mpr (fun hyes => hlacks ?_)
      rcases List.mem_append.mp hother with hother | hother
      · obtain ⟨fragment, hfragment, hfragmentId, hfragmentSession⟩ := hc.sent other hother htype
        rw [hotherId] at hfragmentId
        have hfirst := (count_of_own hq ht hactive hfragment hfragmentId).2
        have hsecond := (count_of_own hq ht hactive hanswered hlabel).2
        have hsame : c.sessionId = some other.sessionId := by
          rw [hcurrent, ← hsecond, hfirst, hfragmentSession]
        rw [← hotherId]
        exact hsaid other hother htype hsame index hyes
      · rw [hnew other hother, hackBitmap] at hyes
        exact howed index hyes
    · rcases hc.missing pending hactive with hover | ⟨index, hindex, hleft⟩
      · exact absurd hover hdone
      · refine .inr ⟨index, hindex, fun other hother htype hotherId => ?_⟩
        rcases List.mem_append.mp hother with hother | hother
        · exact hleft other hother htype hotherId
        · rw [hnew other hother, hackPacket] at hotherId
          rw [hnew other hother, hackBitmap]
          exact Bool.eq_false_iff.mpr (fun hyes => hspoken ⟨hotherId, index, hyes⟩)
  · obtain ⟨other, hother, hrest⟩ := hc.heard pending hactive i hi
    exact ⟨other, List.mem_append_left _ hother, hrest⟩

/-- Moves of the receiver keep what its ACKs say. A fragment an ACK answers is one the sender has
sent, since only such units are received. -/
theorem covers_receive (h : Move x c d) (hpeer : Queued role peer) (ht : Transmits peer)
    (hq : Queued x.role c) (hs : SlotState x.role c) (hg : Genuine (traffic peer) c)
    (hreceived : ∀ unit, x.received = some unit → unit ∈ peer.sent)
    (howes : Owes x.role c) (hspoken : Says x.start c) (hc : Covers peer c) : Covers peer d := by
  have hnone : c.sent = c.sent ++ [] := (List.append_nil _).symm
  have hkept : c.packets = c.packets ++ [] := (List.append_nil _).symm
  have hanswers : ∀ {unit : Fas1Unit} {bitmap : ℕ}, x.received = some unit → unit.type = .data →
      c.sessionId = some unit.sessionId → ∀ ack : LastAck, some ⟨unit.packetId, bitmap⟩ = some ack →
        ∃ fragment ∈ peer.sent, packetOf fragment = some ack.packetId ∧
          c.sessionId = some fragment.sessionId := by
    intro unit bitmap hunit htype hsession ack hack
    rw [← Option.some.inj hack]
    exact ⟨unit, hreceived unit hunit, packetOf_eq_some.mpr ⟨htype, rfl⟩, hsession⟩
  cases h with
  | negotiate _ units state hunits =>
    exact covers_silent hc rfl (fun unit hunit => negotiating_silent (hunits unit hunit)) hkept hc.owed
  | openSession _ sessionId state hrest =>
    refine covers_silent hc hnone (by simp) hkept (fun ack hack => ?_)
    rw [(howes.resting hrest).2] at hack
    cases hack
  | reset => exact covers_silent hc hnone (by simp) hkept (fun ack hack => by cases hack)
  | closeTurn _ beats turnEnd hbeats htype =>
    refine covers_silent hc (List.append_assoc _ _ _) (fun unit hunit => ?_) hkept hc.owed
    rcases List.mem_append.mp hunit with hunit | hunit
    · rw [hbeats unit hunit]
      decide
    · rw [List.mem_singleton.mp hunit, htype]
      decide
  | unclosedHeartbeat _ beat htype =>
    refine covers_silent hc rfl (fun unit hunit => ?_) hkept hc.owed
    rw [List.mem_singleton.mp hunit, htype]
    decide
  | burst _ pending turnEnd count hstate howner hactive hawaiting hmissing htype =>
    exact covers_silent hc rfl (fun unit hunit => burst_type hq hactive htype hunit) hkept hc.owed
  | repeatedData _ unit hunit htype hstate hsession =>
    exact covers_silent hc hnone (by simp) hkept (hanswers hunit htype hsession)
  | storeData _ unit payloadBytes inbound hassembles =>
    exact covers_silent hc hnone (by simp) hkept
      (hanswers hassembles.received hassembles.type hassembles.session)
  | failAssembly _ unit payloadBytes inbound message hassembles =>
    exact covers_silent hc hnone (by simp) hkept
      (hanswers hassembles.received hassembles.type hassembles.session)
  | holdAssembly _ unit payloadBytes inbound packet hassembles =>
    exact covers_silent hc hnone (by simp) hkept
      (hanswers hassembles.received hassembles.type hassembles.session)
  | deliver _ unit payloadBytes inbound packet hassembles =>
    exact covers_silent hc hnone (by simp) rfl
      (hanswers hassembles.received hassembles.type hassembles.session)
  | replyAck _ unit ackUnit ack count hunit htype hstate hsession howner hack hackType hackSession
      hackPacket hackBitmap =>
    obtain ⟨hgeneration, hsame⟩ := hspoken.same (.inl hstate)
    exact covers_reply hpeer ht hs hg howes (hspoken.said hgeneration hsame) hsession hack hackSession
      hackPacket hackBitmap hc
  | resync unit units timer hunit htype hsession hstate hunits =>
    refine covers_silent hc rfl (fun other hother => ?_) hkept hc.owed
    rw [(hunits other hother).1]
    decide
  | recoveryReply _ timer sessionId units htimer htask hunits =>
    refine covers_silent hc rfl (fun unit hunit => ?_) hkept hc.owed
    rw [hunits unit hunit]
    decide
  | _ => exact covers_silent hc hnone (by simp) hkept hc.owed

/-- A sender that hears nothing keeps what the ACKs say. -/
theorem covers_deaf {units : List Fas1Unit} (hc : Covers peer c)
    (hsent : later.sent = peer.sent ++ units) (hacknowledged : later.acknowledged = peer.acknowledged)
    (haccepted : peer.accepted <+: later.accepted)
    (hactive : ∀ pending, later.delivery.active = some pending → ∃ other,
      peer.delivery.active = some other ∧ other.packetId = pending.packetId ∧
        other.fragments = pending.fragments ∧ other.acknowledged = pending.acknowledged) :
    Covers later c := by
  have hmore : ∀ unit ∈ peer.sent, unit ∈ later.sent := by
    intro unit hunit
    rw [hsent]
    exact List.mem_append_left _ hunit
  refine ⟨fun unit hunit htype => ?_, fun ack hack => ?_, fun pending hpending => ?_,
    fun pending hpending => ?_, fun a ha => ?_⟩
  · obtain ⟨fragment, hfragment, hrest⟩ := hc.sent unit hunit htype
    exact ⟨fragment, hmore fragment hfragment, hrest⟩
  · obtain ⟨fragment, hfragment, hrest⟩ := hc.owed ack hack
    exact ⟨fragment, hmore fragment hfragment, hrest⟩
  · obtain ⟨other, hother, hid, hfragments, -⟩ := hactive pending hpending
    rw [← hid, ← hfragments]
    exact hc.missing other hother
  · obtain ⟨other, hother, hid, -, hsame⟩ := hactive pending hpending
    rw [← hid, ← hsame]
    exact hc.heard other hother
  · rw [hacknowledged] at ha
    exact ⟨haccepted.subset (hc.done a ha).1, (hc.done a ha).2⟩

/-- The next packet has no ACK yet. -/
theorem covers_activate (ht : Transmits peer) (hq : Queued role peer) (hstocked : Stocked peer)
    (hc : Covers peer c) :
    Covers { peer with
      delivery.active := (dequeue peer.delivery.queues).1
      delivery.queues := (dequeue peer.delivery.queues).2 } c := by
  have hwaiting : ∀ pending, (dequeue peer.delivery.queues).1 = some pending →
      pending ∈ waitingOf peer.delivery.queues := by
    intro pending hpending
    rw [← waitingOf_dequeue]
    refine List.mem_append_left _ ?_
    rw [Option.mem_toList]
    exact hpending
  refine ⟨hc.sent, hc.owed, fun pending hpending => ?_, fun pending hpending i hi => ?_, hc.done⟩
  · have hmem := hwaiting pending hpending
    obtain ⟨_, -, -, input, hfragments, -⟩ := hq.recorded pending (by
      rw [pendingOf_eq]
      exact List.mem_append_right _ hmem)
    obtain ⟨hadmissible, hlist⟩ := fragmentPacket_ok hfragments
    have hpositive : 0 < pending.fragments.length := by
      rw [hlist, List.length_map, List.length_range]
      exact hadmissible.count.1
    refine .inr ⟨0, hpositive, fun unit hunit htype hid => ?_⟩
    obtain ⟨fragment, hfragment, hlabel, -⟩ := hc.sent unit hunit htype
    obtain ⟨i, hi⟩ := List.getElem?_of_mem hfragment
    rw [hid] at hlabel
    exact absurd rfl (ht.waiting pending hmem i _ ⟨fragment, hi, hlabel⟩).1
  · have huntouched : pending.acknowledged = 0 := by
      refine (hstocked.queued pending ?_).2
      have hmem := hwaiting pending hpending
      simp only [waitingOf, List.mem_append] at hmem
      tauto
    rw [huntouched, Nat.zero_testBit] at hi
    cases hi

/-- Moves of the sender keep what the ACKs say. Most are deaf to them; the others take a packet up,
send a burst of it, or finish it. -/
theorem covers_send (h : Move x peer later) (ht : Transmits peer) (hq : Queued role peer)
    (hstocked : Stocked peer) (hreceived : ∀ unit, x.received = some unit → unit ∈ c.sent)
    (hc : Covers peer c) : Covers later c := by
  have hself : ∀ pending, peer.delivery.active = some pending → ∃ other,
      peer.delivery.active = some other ∧ other.packetId = pending.packetId ∧
        other.fragments = pending.fragments ∧ other.acknowledged = pending.acknowledged :=
    fun pending hpending => ⟨pending, hpending, rfl, rfl, rfl⟩
  have hnone : peer.sent = peer.sent ++ [] := (List.append_nil _).symm
  have haccepted := accepted_move h
  cases h with
  | negotiate _ units => exact covers_deaf hc rfl rfl haccepted hself
  | reset => exact covers_deaf hc hnone rfl haccepted (fun _ hp => by cases hp)
  | dropActive => exact covers_deaf hc hnone rfl haccepted (fun _ hp => by cases hp)
  | skipTurn => exact covers_deaf hc hnone rfl haccepted (fun _ hp => by cases hp)
  | activate => exact covers_activate ht hq hstocked hc
  | closeTurn => exact covers_deaf hc (List.append_assoc _ _ _) rfl haccepted hself
  | unclosedHeartbeat => exact covers_deaf hc rfl rfl haccepted hself
  | burst _ pending turnEnd count hstate howner hactive =>
    refine covers_deaf hc rfl rfl haccepted (fun other hother => ⟨pending, hactive, ?_⟩)
    rw [← Option.some.inj hother]
    exact ⟨rfl, rfl, rfl⟩
  | replyAck => exact covers_deaf hc rfl rfl haccepted hself
  | resync => exact covers_deaf hc rfl rfl haccepted hself
  | recoveryReply => exact covers_deaf hc rfl rfl haccepted hself
  | fullAck _ unit pending sessionId hunit htype hstate hsession hunitSession hactive hawaiting
      hpacket hlegal hfull =>
    refine ⟨hc.sent, hc.owed, fun _ hp => (by cases hp), fun _ hp => (by cases hp), fun a ha => ?_⟩
    rcases List.mem_append.mp ha with ha | ha
    · exact hc.done a ha
    · obtain ⟨current, hcurrent, hrecorded, -⟩ :=
        hq.recorded pending (mem_pendingOf.mpr (.inl hactive))
      have hsame : current = sessionId := Option.some.inj (hcurrent.symm.trans hsession)
      rw [hsame] at hrecorded
      rw [List.mem_singleton.mp ha]
      refine ⟨hrecorded, (hc.missing pending hactive).resolve_right ?_⟩
      rintro ⟨index, hindex, hleft⟩
      have hbit := testBit_fullMask hindex
      rw [← hfull, Nat.testBit_or, Bool.or_eq_true] at hbit
      rcases hbit with hbit | hbit
      · obtain ⟨other, hother, hotherType, hotherId, hyes⟩ := hc.heard pending hactive index hbit
        rw [hleft other hother hotherType hotherId] at hyes
        cases hyes
      · rw [hleft unit (hreceived unit hunit) htype hpacket] at hbit
        cases hbit
  | partialAck _ unit pending timer hunit htype hstate hsession hactive hawaiting hpacket =>
    refine ⟨hc.sent, hc.owed, fun other hother => ?_, fun other hother i hi => ?_, hc.done⟩
    · rw [← Option.some.inj hother]
      exact hc.missing pending hactive
    · rw [← Option.some.inj hother] at hi ⊢
      have hbit : (pending.acknowledged ||| unit.sequence).testBit i = true := hi
      rw [Nat.testBit_or, Bool.or_eq_true] at hbit
      rcases hbit with hbit | hbit
      · exact hc.heard pending hactive i hbit
      · exact ⟨unit, hreceived unit hunit, htype, hpacket, hbit⟩
  | _ => exact covers_deaf hc hnone rfl haccepted hself

end Covers

/-- What holds of a receiver between the moves of a step. -/
structure Receives (x : Context) (peer c : Core) : Prop where
  /-- Its pending packets. -/
  queued : Queued x.role c
  /-- The fragments it sent. -/
  transmits : Transmits c
  /-- Its assembly. -/
  slot : SlotState x.role c
  /-- It listens to what it receives. -/
  listening : x.received ≠ none → c.subscribed = true
  /-- What it holds was sent. -/
  genuine : Genuine (traffic peer) c
  /-- Its assembly has not expired. -/
  lasts : Lasts x.now c
  /-- What it owes. -/
  owes : Owes x.role c
  /-- What it says. -/
  spoken : Says x.start c
  /-- What its ACKs say. -/
  covers : Covers peer c

section Steps

variable {x : Context} {role : AcousticRole} {peer later c d : Core}

/-- Moves of a receiver, one after the other, keep what its ACKs say. -/
theorem receives_moves (hmoves : Moves x c d) (hpeer : Queued role peer) (ht : Transmits peer)
    (hwrap : ¬x.wrapping)
    (hx : ∀ candidate ∈ x.candidates, candidate.payloadBytes ≤ fas1MaxBodyBytes)
    (hwf : ∀ unit, x.received = some unit → unit.WellFormed)
    (hreceived : ∀ unit, x.received = some unit → unit ∈ peer.sent) (hc : Receives x peer c) :
    Receives x peer d := by
  induction hmoves with
  | refl => exact hc
  | tail _ hmove ih =>
    exact
      { queued := queued_move hmove ih.queued hwrap
        transmits := transmits_move hmove ih.queued ih.transmits
        slot := slotState_move hmove ih.slot ih.listening hx hwf
        listening := subscribed_move hmove ih.listening
        genuine := genuine_move hmove ih.slot hwf hreceived (sound_traffic hpeer ht) ih.genuine
        lasts := lasts_move hmove ih.lasts
        owes := owes_move hmove ih.slot hwf ih.lasts ih.owes
        spoken := says_move hmove ih.queued ih.slot hwf ih.lasts ih.owes ih.spoken
        covers := covers_receive hmove hpeer ht ih.queued ih.slot ih.genuine hreceived ih.owes
          ih.spoken ih.covers }

/-- Moves of a sender, one after the other, keep what the ACKs say of its packets. -/
theorem covers_moves (hmoves : Moves x peer later) (hq : Queued x.role peer) (ht : Transmits peer)
    (hstocked : Stocked peer) (hwrap : ¬x.wrapping)
    (hx : ∀ candidate ∈ x.candidates, FitsBody candidate.payloadBytes)
    (hreceived : ∀ unit, x.received = some unit → unit ∈ c.sent) (hc : Covers peer c) :
    Covers later c := by
  have h : (Queued x.role later ∧ Transmits later ∧ Stocked later) ∧ Covers later c := by
    induction hmoves with
    | refl => exact ⟨⟨hq, ht, hstocked⟩, hc⟩
    | tail _ hmove ih =>
      obtain ⟨⟨hqueued, htransmits, hstock⟩, hcovers⟩ := ih
      exact ⟨⟨queued_move hmove hqueued hwrap, transmits_move hmove hqueued htransmits,
        stocked_move hmove hstock hx⟩, covers_send hmove htransmits hqueued hstock hreceived hcovers⟩
  exact h.2

end Steps

section Link

/-- An end that leaves its session or takes one up takes up no identifier it has had. -/
def TakesNew (s t : AcousticSession) : Prop :=
  (t.link.generation = s.link.generation ∧ t.link.sessionId = s.link.sessionId) ∨
    ∀ id ∈ t.link.sessionId.toList, s.link.sessionId ≠ some id ∧
      ∀ unit ∈ s.io.sent, unit.sessionId ≠ id

instance (s t : AcousticSession) : Decidable (TakesNew s t) :=
  inferInstanceAs (Decidable (_ ∨ _))

instance (now : ℕ) (c : Core) : Decidable (Lasts now c) :=
  decidable_of_iff (∀ inbound ∈ c.delivery.inbound.toList, now ≤ inbound.expiresAt)
    (by simp only [Lasts, Option.mem_toList])

/-- No counter comes round, no assembly expires, and no session is taken up again. -/
def Lasting (link : LinkOptions) (w : World) (event : Readings × LinkEvent) : Prop :=
  NumberedEvent w event.2 ∧ ∀ role ∈ (concerned event.2).toList,
    Lasts event.1.now (core (w.session.get role)) ∧
      TakesNew (w.session.get role) ((linkStep link w event).session.get role)

instance (link : LinkOptions) (w : World) (event : Readings × LinkEvent) :
    Decidable (Lasting link w event) := inferInstanceAs (Decidable (_ ∧ _))

/-- What holds of the acknowledgements of a link. -/
structure Acked (link : LinkOptions) (w : World) : Prop where
  /-- What is handed over was accepted. -/
  faithful : Faithful link w
  /-- What the ends owe. -/
  owes : ∀ role, Owes role (core (w.session.get role))
  /-- What they have said. -/
  said : ∀ role, Said (core (w.session.get role))
  /-- What their ACKs say. -/
  covers : ∀ role, Covers (core (w.session.get (complement role))) (core (w.session.get role))

variable {link : LinkOptions} {w : World} {event : Readings × LinkEvent}

/-- Both ends hold well formed fragments in every reachable state. -/
theorem stocked_end (hends : LinkState link w) (role : AcousticRole) :
    Stocked (core (w.session.get role)) := by
  obtain ⟨events, hevents⟩ := (hends role).session
  have hstocked := stocked_run (link.ends.get role) events
  rw [hevents]
  exact hstocked

/-- What an end has said in its session is true after a step that takes up no old session. -/
theorem said_of_says {s t : AcousticSession} (hspoken : Says (core s) (core t))
    (htakes : TakesNew s t) : Said (core t) := by
  rcases htakes with ⟨hgeneration, hsession⟩ | hnew
  · exact hspoken.said hgeneration hsession
  · intro unit hunit htype hsession
    obtain ⟨hold, hfresh⟩ := hnew unit.sessionId (by
      rw [show t.link.sessionId = some unit.sessionId from hsession]
      exact List.mem_singleton_self _)
    rcases hspoken.fresh unit hunit htype with hbefore | hcurrent
    · exact absurd rfl (hfresh unit hbefore)
    · exact absurd hcurrent hold

/-- An end that has sent nothing new says nothing new. -/
theorem says_refl {c : Core} (h : Said c) : Says c c :=
  ⟨le_rfl, fun _ => .inl rfl, fun _ _ => h, fun _ hunit _ => .inl hunit,
    fun hdiffers => absurd ⟨rfl, rfl⟩ hdiffers⟩

/-- One step of the link acknowledges no packet the peer has not handed over. The step is moves of
one end, or nothing. -/
theorem acked_step (link : LinkOptions) (w : World) (event : Readings × LinkEvent)
    (hlasting : Lasting link w event) (h : Acked link w) : Acked link (linkStep link w event) := by
  obtain ⟨hnumbered, hends⟩ := hlasting
  have hfaithful := faithful_step link w event hnumbered h.faithful
  rcases linkStep_moves h.faithful.ends hnumbered with hsame | ⟨role, x, s, hset, hend⟩
  · refine ⟨hfaithful, fun role => ?_, fun role => ?_, fun role => ?_⟩
    · rw [hsame]
      exact h.owes role
    · rw [hsame]
      exact h.said role
    · rw [hsame]
      exact h.covers role
  · obtain ⟨hconcerns, hstart, hmoves, rfl, hnow, hcandidates, hwrap, hlistening, hreceived⟩ := hend
    obtain ⟨hlasts, htakes⟩ := hends x.role (by rw [hconcerns]; exact List.mem_singleton_self _)
    rw [hset, PerRole.get_set_same] at htakes
    have hsent : ∀ unit, x.received = some unit → unit ∈ w.sent (complement x.role) := by
      intro unit hunit
      obtain ⟨index, harriving⟩ := hreceived unit hunit
      exact List.mem_of_getElem? (arriving_sent harriving)
    have hpeer := h.faithful.orderly (complement x.role)
    have hself := h.faithful.orderly x.role
    have hreceives : Receives x (core (w.session.get (complement x.role))) (core s) := by
      refine receives_moves hmoves hpeer.queued hpeer.transmits hwrap ?_
        (fun unit hunit => (h.faithful.ends (complement x.role)).sent unit (hsent unit hunit)) hsent ?_
      · rw [hcandidates]
        exact (link.ends.get x.role).payload_le
      · exact
          { queued := hself.queued
            transmits := hself.transmits
            slot := slotState_end h.faithful.ends x.role
            listening := hlistening
            genuine := h.faithful.genuine x.role
            lasts := by
              rw [hnow]
              exact hlasts
            owes := h.owes x.role
            spoken := by
              rw [hstart]
              exact says_refl (h.said x.role)
            covers := h.covers x.role }
    have hsaid : Said (core s) := by
      have hspoken := hreceives.spoken
      rw [hstart] at hspoken
      exact said_of_says hspoken htakes
    have hcovers : Covers (core s) (core (w.session.get (complement x.role))) := by
      have hbefore := h.covers (complement x.role)
      rw [complement_complement] at hbefore
      refine covers_moves hmoves hself.queued hself.transmits
        (stocked_end h.faithful.ends x.role) hwrap ?_ hsent hbefore
      rw [hcandidates]
      exact (link.ends.get x.role).payload_bounds
    have hroles : ∀ role, role = x.role ∨ role = complement x.role := by
      intro role
      cases role <;> cases x.role <;> simp [complement]
    refine ⟨hfaithful, fun role => ?_, fun role => ?_, fun role => ?_⟩
    · rw [hset]
      rcases hroles role with rfl | rfl
      · rw [PerRole.get_set_same]
        exact hreceives.owes
      · rw [PerRole.get_set_complement]
        exact h.owes _
    · rw [hset]
      rcases hroles role with rfl | rfl
      · rw [PerRole.get_set_same]
        exact hsaid
      · rw [PerRole.get_set_complement]
        exact h.said _
    · rw [hset]
      rcases hroles role with rfl | rfl
      · rw [PerRole.get_set_same, PerRole.get_set_complement]
        exact hreceives.covers
      · rw [complement_complement, PerRole.get_set_same, PerRole.get_set_complement]
        exact hcovers

/-- Nothing is acknowledged at the start. -/
theorem acked_initial (link : LinkOptions) : Acked link initialWorld := by
  refine ⟨faithful_initial link, fun role => ?_, fun role => ?_, fun role => ?_⟩
  · cases role <;> constructor <;>
      simp [initialWorld, PerRole.get, core, initialSession]
  · intro unit hunit
    cases role <;> simp [initialWorld, PerRole.get, core, initialSession] at hunit
  · constructor <;> cases role <;>
      simp [initialWorld, PerRole.get, core, initialSession, complement]

/-- Whatever the channel loses, repeats or reorders: in every run that does not use up its packet
identifiers, drops no assembly for its age and takes up no session again, a packet whose fragments
an end has seen fully acknowledged was handed over by its peer, in the same session and with the
same bytes. -/
theorem acknowledged_delivered (link : LinkOptions) (events : List (Readings × LinkEvent))
    (h : Along (linkStep link) (Lasting link) initialWorld events) (role : AcousticRole) :
    ∀ a ∈ ((runLink link events).session.get role).io.acknowledged,
      ∃ e ∈ ((runLink link events).session.get (complement role)).io.packets,
        e.sessionId = a.sessionId ∧ e.packetId = a.packetId ∧ e.packet = a.packet := by
  intro a ha
  have hrun : Acked link (runLink link events) :=
    invariant_along (linkStep link) (acked_step link) (acked_initial link) h
  have hcovers := hrun.covers (complement role)
  rw [complement_complement] at hcovers
  obtain ⟨haccepted, e, he, hid⟩ := hcovers.done a ha
  have hgenuine := hrun.faithful.genuine (complement role)
  rw [complement_complement] at hgenuine
  obtain ⟨b, hb, hsession, hsame, hpacket⟩ := hgenuine.packets e he
  have heq : b = a := accepted_unique (hrun.faithful.orderly role).queued.numbers hb haccepted
    (hsame.trans hid)
  rw [heq] at hsession hpacket
  exact ⟨e, he, hsession.symm, hid, hpacket.symm⟩

/-- A packet of two fragments; the first one and its ACK come twice. -/
def benchAcknowledged : List (Readings × LinkEvent) :=
  benchEstablish ++ [benchAct .a (.enqueuePacket [7, 8] .ordinary), benchDeliver .b,
    (benchReadings .b, .redeliver .b 6), benchLose .b, benchDeliver .b, benchDeliver .a,
    (benchReadings .a, .redeliver .a 6), benchAct .a (.fire .deliveryTimer), benchDeliver .b,
    benchDeliver .b, benchDeliver .a]

set_option maxRecDepth 8000 in
/-- The packet acknowledged in the run below was handed over at the peer. -/
theorem acknowledged_delivered_bench :
    (runLink benchLink benchAcknowledged).session.a.io.acknowledged.map (·.packet) = [[7, 8]] ∧
      ∀ a ∈ (runLink benchLink benchAcknowledged).session.a.io.acknowledged,
        ∃ e ∈ (runLink benchLink benchAcknowledged).session.b.io.packets,
          e.sessionId = a.sessionId ∧ e.packetId = a.packetId ∧ e.packet = a.packet := by
  have hlasting : Along (linkStep benchLink) (Lasting benchLink) initialWorld
      benchAcknowledged := by decide +kernel
  have hdropped : (runLink benchLink benchAcknowledged).session.a.io.acknowledged.map (·.packet) =
      [[7, 8]] := by decide +kernel
  exact ⟨hdropped, acknowledged_delivered benchLink benchAcknowledged hlasting .a⟩

end Link

end Fipwave.AckSoundness
