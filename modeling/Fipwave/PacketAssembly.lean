import Fipwave.LinkSessions

/-!
# The assembly slot of a receiver

A session holds one assembly at a time. Whatever happened before, the slot
holds some but not all fragments of one shape, of the current session and
with the committed payload size, so the fragment that completes it always
makes it a packet. A packet that arrives whole therefore gets through exactly
when the slot is empty or holds nothing but fragments of that packet.
-/

namespace Fipwave.PacketAssembly

open ByteWords ScriptIntegers ThrowingMethod Relation TransitionRun AcousticProtocol
  SettingsCommitment PacketFragments AcousticHandshake AcousticState AcousticMethods
  AcousticNegotiation AcousticDelivery AcousticSession AcousticLink DeliveryMachine
  NegotiationMoves DeliveryRefinement LinkSessions

/-- States a session can hold an assembly in. -/
def Established (state : AcousticSessionState) : Prop :=
  state ∈ [.awaitingHeartbeat, .ready, .degraded, .recovering, .error]

/-- The shape of the fragments in an assembly. -/
def slotShape (role : AcousticRole) (settings : AcousticSettings) (sessionId : ℕ)
    (inbound : InboundAssembly) : PacketShape :=
  ⟨sessionId, inbound.packetId, inbound.packetLength, inboundPayload role settings⟩

/-- Fragments of one shape with different indices. -/
structure Collects (shape : PacketShape) (inbound : InboundAssembly) : Prop where
  /-- The packet of the shape. -/
  packetId : inbound.packetId = shape.packetId
  /-- The length of the shape. -/
  packetLength : inbound.packetLength = shape.packetLength
  /-- The fragment count of the shape. -/
  fragmentCount : inbound.fragmentCount = shape.count
  /-- Every fragment fits the shape. -/
  fits : ∀ fragment ∈ inbound.fragments, shape.Fits fragment
  /-- No index occurs twice. -/
  nodup : (inbound.fragments.map (·.fragmentIndex)).Nodup
  /-- There is a fragment. -/
  nonempty : inbound.fragments ≠ []

/-- What holds of the assembly of a session. -/
structure Assembling (role : AcousticRole) (c : Core) (inbound : InboundAssembly) : Prop where
  /-- The session is established. -/
  state : Established c.state
  /-- Fragments of the session with the committed payload size. -/
  collects : ∃ settings sessionId, c.settings = some settings ∧ c.sessionId = some sessionId ∧
    Collects (slotShape role settings sessionId inbound) inbound
  /-- Some fragment is still missing. -/
  incomplete : inbound.fragments.length < inbound.fragmentCount

/-- What holds of a receiver between any two moves. -/
structure SlotState (role : AcousticRole) (c : Core) : Prop where
  /-- Selected payloads fit one body. -/
  selected : ∀ direction candidate, c.selected.get direction = some candidate →
    candidate.payloadBytes ≤ fas1MaxBodyBytes
  /-- Committed payloads fit one body. -/
  settings : ∀ settings, c.settings = some settings →
    inboundPayload role settings ≤ fas1MaxBodyBytes
  /-- A ready session is subscribed. -/
  listening : c.state = .ready → c.subscribed = true
  /-- The assembly is in order. -/
  slot : ∀ inbound, c.delivery.inbound = some inbound → Assembling role c inbound

variable {x : Context} {c d : Core} {unit : Fas1Unit} {payloadBytes : ℕ}

/-- The shape of a fragment that is stored. -/
def unitShape (unit : Fas1Unit) (payloadBytes : ℕ) : PacketShape :=
  ⟨unit.sessionId, unit.packetId, unit.packetLength, payloadBytes⟩

/-- A well-formed fragment that is stored fits its own shape. -/
theorem unitShape_fits (h : Assembles x c unit payloadBytes) (hwf : unit.WellFormed) :
    (unitShape unit payloadBytes).Fits unit := by
  refine ⟨hwf, h.type, rfl, rfl, rfl, h.count, ?_⟩
  rw [h.length, h.count]
  rfl

/-- A payload of size zero has no fragments. -/
theorem payload_pos (h : Assembles x c unit payloadBytes) (hwf : unit.WellFormed) :
    1 ≤ payloadBytes := by
  have hbounds := (unitShape_fits h hwf).bounds
  by_contra hzero
  have : payloadBytes = 0 := by omega
  subst this
  simp [unitShape, PacketShape.count, ceilDivide] at hbounds

/-- What an assembly that agrees with a fragment shares with it. -/
theorem agrees_iff {existing : InboundAssembly} : conflicts unit existing = false ↔
    existing.packetId = unit.packetId ∧ existing.fragmentCount = unit.fragmentCount ∧
      existing.packetLength = unit.packetLength := by
  simp only [conflicts, Bool.or_eq_false_iff, decide_eq_false_iff_not, not_not, and_assoc]

/-- The fields an assembly keeps when a fragment is stored. -/
theorem withFragment_fields (inbound : InboundAssembly) (unit : Fas1Unit) :
    (withFragment inbound unit).packetId = inbound.packetId ∧
      (withFragment inbound unit).fragmentCount = inbound.fragmentCount ∧
      (withFragment inbound unit).packetLength = inbound.packetLength ∧
      (withFragment inbound unit).expiresAt = inbound.expiresAt := by
  unfold withFragment
  split <;> exact ⟨rfl, rfl, rfl, rfl⟩

/-- Which fragments an assembly holds after one more is stored. -/
theorem mem_withFragment {inbound : InboundAssembly} {fragment : Fas1Unit}
    (h : fragment ∈ (withFragment inbound unit).fragments) :
    fragment ∈ inbound.fragments ∨ fragment = unit := by
  unfold withFragment at h
  split at h
  · exact .inl h
  · simpa using h

/-- A fragment of an index that is held is not stored again. -/
theorem withFragment_nodup {inbound : InboundAssembly}
    (h : (inbound.fragments.map (·.fragmentIndex)).Nodup) :
    ((withFragment inbound unit).fragments.map (·.fragmentIndex)).Nodup := by
  unfold withFragment
  split
  · exact h
  · next hnew =>
    simp only [holdsIndex, List.any_eq_true, decide_eq_true_eq, not_exists, not_and] at hnew
    rw [List.map_append, List.nodup_append]
    refine ⟨h, by simp, ?_⟩
    intro index hmem other hother heq
    obtain ⟨fragment, hfragment, rfl⟩ := List.mem_map.mp hmem
    simp only [List.map_cons, List.map_nil, List.mem_singleton] at hother
    exact hnew fragment hfragment (heq.trans hother)

/-- Every index of an assembly stays, and the index of the stored fragment is there. -/
theorem holdsIndex_withFragment (inbound : InboundAssembly) (unit : Fas1Unit) (index : ℕ) :
    holdsIndex (withFragment inbound unit) index =
      (holdsIndex inbound index || unit.fragmentIndex = index) := by
  unfold withFragment
  split
  · next hheld =>
    by_cases heq : unit.fragmentIndex = index
    · rw [heq] at hheld
      simp [hheld]
    · simp [heq]
  · simp [holdsIndex]

theorem withFragment_ne_nil (inbound : InboundAssembly) (unit : Fas1Unit) :
    (withFragment inbound unit).fragments ≠ [] := by
  have h := holdsIndex_withFragment inbound unit unit.fragmentIndex
  intro hnil
  simp [holdsIndex, hnil] at h

/-- A fragment of the shape an assembly collects leaves it collecting that shape. -/
theorem collects_withFragment {shape : PacketShape} {slot : Option InboundAssembly} (now : ℕ)
    (hfit : shape.Fits unit) (hslot : ∀ existing, slot = some existing → Collects shape existing) :
    Collects shape (withFragment (assemblyFor now unit slot) unit) := by
  have hfields := withFragment_fields (assemblyFor now unit slot) unit
  cases slot with
  | none =>
    refine ⟨hfields.1.trans hfit.packetId, hfields.2.2.1.trans hfit.packetLength,
      hfields.2.1.trans hfit.fragmentCount, ?_, ?_, withFragment_ne_nil _ _⟩
    · intro fragment hmem
      rcases mem_withFragment hmem with hmem | rfl
      · simp [assemblyFor] at hmem
      · exact hfit
    · exact withFragment_nodup (by simp [assemblyFor])
  | some existing =>
    have hcollects := hslot existing rfl
    refine ⟨hfields.1.trans hcollects.packetId, hfields.2.2.1.trans hcollects.packetLength,
      hfields.2.1.trans hcollects.fragmentCount, ?_, withFragment_nodup hcollects.nodup,
      withFragment_ne_nil _ _⟩
    intro fragment hmem
    rcases mem_withFragment hmem with hmem | rfl
    · exact hcollects.fits fragment hmem
    · exact hfit

/-- The assembly a fragment is stored in collects fragments of its shape. -/
theorem collects_after (h : Assembles x c unit payloadBytes) (hwf : unit.WellFormed)
    (hs : SlotState x.role c) :
    Collects (unitShape unit payloadBytes) (assemblyAfter x.now unit c.delivery) := by
  refine collects_withFragment x.now (unitShape_fits h hwf) ?_
  intro existing hinbound
  have hagrees := agrees_iff.mp (h.agrees existing hinbound)
  obtain ⟨settings, sessionId, hsettings, hsession, hcollects⟩ :=
    (hs.slot existing hinbound).collects
  obtain ⟨settings', hsettings', hpayload⟩ := h.payload
  obtain rfl := Option.some.inj (hsettings.symm.trans hsettings')
  obtain rfl := Option.some.inj (hsession.symm.trans h.session)
  rw [slotShape, hagrees.1, hagrees.2.2, ← hpayload] at hcollects
  exact hcollects

/-- A complete assembly always makes a packet of the declared length. -/
theorem reassemble_after (h : Assembles x c unit payloadBytes) (hwf : unit.WellFormed)
    (hs : SlotState x.role c) {inbound : InboundAssembly}
    (hinbound : inbound = assemblyAfter x.now unit c.delivery)
    (hcomplete : inbound.fragments.length = inbound.fragmentCount) :
    reassemblePacket inbound.fragments payloadBytes =
        .ok (joined inbound.fragments inbound.fragmentCount) ∧
      (joined inbound.fragments inbound.fragmentCount).length = inbound.packetLength := by
  have hcollects := collects_after h hwf hs
  rw [← hinbound] at hcollects
  obtain ⟨settings, hsettings, hpayload⟩ := h.payload
  have hmax : payloadBytes ≤ fas1MaxBodyBytes := by
    rw [hpayload]
    exact hs.settings settings hsettings
  rw [hcollects.fragmentCount, hcollects.packetLength]
  exact reassemblePacket_complete ⟨payload_pos h hwf, hmax⟩ hcollects.fits hcollects.nodup
    (hcomplete.trans hcollects.fragmentCount) hcollects.nonempty

/-- An assembly holds at most as many fragments as its packet has. -/
theorem Collects.length_le {shape : PacketShape} {inbound : InboundAssembly}
    (h : Collects shape inbound) : inbound.fragments.length ≤ inbound.fragmentCount := by
  have hsubset : (inbound.fragments.map (·.fragmentIndex)).toFinset ⊆ Finset.range shape.count := by
    intro index hindex
    rw [List.mem_toFinset, List.mem_map] at hindex
    obtain ⟨fragment, hmem, rfl⟩ := hindex
    exact Finset.mem_range.mpr (h.fits fragment hmem).bounds.2.2.2
  have hcard := Finset.card_le_card hsubset
  rwa [List.toFinset_card_of_nodup h.nodup, List.length_map, Finset.card_range,
    ← h.fragmentCount] at hcard

/-- An assembly stays in order while state, session and settings allow it. -/
theorem Assembling.of_eq {role : AcousticRole} {inbound : InboundAssembly}
    (h : Assembling role c inbound) (hstate : Established d.state)
    (hsettings : d.settings = c.settings) (hsession : d.sessionId = c.sessionId) :
    Assembling role d inbound :=
  ⟨hstate, by rw [hsettings, hsession]; exact h.collects, h.incomplete⟩

/-- A session in an early state or at rest holds no assembly. -/
theorem slot_empty {role : AcousticRole} (hs : SlotState role c) (h : ¬Established c.state) :
    c.delivery.inbound = none := by
  cases hinbound : c.delivery.inbound with
  | none => rfl
  | some inbound => exact absurd (hs.slot inbound hinbound).state h

/-- A session that is being set up is not established. -/
theorem not_established_of_early {state : AcousticSessionState} (h : Early state) :
    ¬Established state := by
  simp only [Early, List.mem_cons, List.not_mem_nil, or_false] at h
  rcases h with rfl | rfl | rfl | rfl | rfl | rfl <;> simp [Established]

/-- Nor is one at rest. -/
theorem not_established_of_rest {role : AcousticRole} {state : AcousticSessionState}
    (h : state = restState role) : ¬Established state := by
  subst h
  cases role <;> simp [restState, Established]

/-- The assembly after any move. A move keeps it, empties it, or stores a fragment that was checked
against it. -/
theorem slot_move_inbound (h : Move x c d) (hs : SlotState x.role c)
    (hwf : ∀ unit, x.received = some unit → unit.WellFormed) :
    ∀ inbound, d.delivery.inbound = some inbound → Assembling x.role d inbound := by
  have hkeep : d.delivery.inbound = c.delivery.inbound → (Established c.state → Established d.state) →
      d.settings = c.settings → d.sessionId = c.sessionId →
      ∀ inbound, d.delivery.inbound = some inbound → Assembling x.role d inbound := by
    intro hinbound hstate hsettings hsession inbound hd
    have hc := hs.slot inbound (hinbound ▸ hd)
    exact hc.of_eq (hstate hc.state) hsettings hsession
  cases h with
  | negotiate _ units state hunits hwf hstate =>
    refine hkeep rfl ?_ rfl rfl
    intro hestablished
    rcases hstate with rfl | rfl | ⟨hearly, -⟩
    · exact hestablished
    · simp [Established]
    · exact absurd hestablished (not_established_of_early hearly)
  | openSession _ sessionId state hrest =>
    have hempty := slot_empty hs (not_established_of_rest hrest)
    intro inbound hd
    simp [hempty] at hd
  | reset => simp [resetCore]
  | commitSettings _ aToB bToA hstate =>
    have hempty := slot_empty hs (by simp [hstate, Established])
    intro inbound hd
    simp [hempty] at hd
  | expireInbound => simp
  | storeData _ unit payloadBytes inbound hassembles hinbound hincomplete =>
    intro other hother
    obtain rfl := Option.some.inj hother
    have hcollects := collects_after hassembles (hwf unit hassembles.received) hs
    rw [← hinbound] at hcollects
    obtain ⟨settings, hsettings, hpayload⟩ := hassembles.payload
    refine ⟨by simp [hassembles.state, Established],
      ⟨settings, unit.sessionId, hsettings, hassembles.session, ?_⟩,
      lt_of_le_of_ne hcollects.length_le hincomplete⟩
    have hshape : slotShape x.role settings unit.sessionId inbound =
        unitShape unit payloadBytes := by
      rw [slotShape, unitShape, hcollects.packetId, hcollects.packetLength, ← hpayload]
      rfl
    rw [hshape]
    exact hcollects
  | failAssembly => simp
  | holdAssembly _ unit payloadBytes inbound packet hassembles hinbound hcomplete hresult hlength =>
    have hok := reassemble_after hassembles (hwf unit hassembles.received) hs hinbound hcomplete
    obtain rfl := Except.ok.inj (hresult.symm.trans hok.1)
    exact absurd hok.2 hlength
  | deliver => simp
  | commitToken | degrade | recover | resync | unansweredResync =>
    exact hkeep rfl (fun _ => by simp [Established]) rfl rfl
  | _ => exact hkeep rfl id rfl rfl

/-- A move of a subscribed session keeps it subscribed while a unit is received. -/
theorem subscribed_move (h : Move x c d) (hc : x.received ≠ none → c.subscribed = true) :
    x.received ≠ none → d.subscribed = true := by
  intro hreceived
  have hc := hc hreceived
  cases h with
  | unsubscribe _ hnone => exact absurd hnone hreceived
  | _ => exact hc

/-- A move keeps a ready session subscribed. -/
theorem listening_move (h : Move x c d) (hs : SlotState x.role c)
    (hc : x.received ≠ none → c.subscribed = true) : d.state = .ready → d.subscribed = true := by
  have hlistening := hs.listening
  cases h with
  | negotiate _ units state hunits hwf hstate =>
    rintro rfl
    rcases hstate with hstate | hstate | ⟨-, hearly⟩
    · exact hlistening hstate.symm
    · cases hstate
    · simp [Early] at hearly
  | openSession _ sessionId state hrest hearly =>
    rintro rfl
    simp [Early] at hearly
  | reset =>
    intro hready
    cases hrole : x.role <;> simp [resetCore, restState, hrole] at hready
  | unsubscribe _ hnone hrest =>
    intro hready
    rw [hrest] at hready
    cases hrole : x.role <;> simp [restState, hrole] at hready
  | commitToken | degrade | recover =>
    intro hready
    cases hready
  | resync unit units timer hunit => exact fun _ => hc (by simp [hunit])
  | unansweredResync _ unit hunit => exact fun _ => hc (by simp [hunit])
  | _ => exact hlistening

/-- Moves keep what holds of a receiver. -/
theorem slotState_move (h : Move x c d) (hs : SlotState x.role c)
    (hc : x.received ≠ none → c.subscribed = true)
    (hx : ∀ candidate ∈ x.candidates, candidate.payloadBytes ≤ fas1MaxBodyBytes)
    (hwf : ∀ unit, x.received = some unit → unit.WellFormed) : SlotState x.role d := by
  refine ⟨?_, ?_, listening_move h hs hc, slot_move_inbound h hs hwf⟩
  · cases h with
    | selectCandidate _ direction candidate hcandidate =>
      intro other found hfound
      by_cases heq : other = direction
      · subst heq
        rw [PerDirection.get_set_same] at hfound
        obtain rfl := Option.some.inj hfound
        exact hx candidate hcandidate
      · rw [PerDirection.get_set_other _ _ heq] at hfound
        exact hs.selected other found hfound
    | reset =>
      intro direction candidate hfound
      cases direction <;> simp [resetCore, PerDirection.get] at hfound
    | _ => exact hs.selected
  · cases h with
    | commitSettings _ aToB bToA hstate haToB hbToA =>
      intro settings hsettings
      obtain rfl := Option.some.inj hsettings
      cases x.role with
      | a => exact hs.selected .bToA bToA hbToA
      | b => exact hs.selected .aToB aToB haToB
    | reset =>
      intro settings hsettings
      simp [resetCore] at hsettings
    | _ => exact hs.settings

/-- The moves of one step keep what holds of a receiver. -/
theorem slotState_moves (hmoves : Moves x c d) (hs : SlotState x.role c)
    (hc : x.received ≠ none → c.subscribed = true)
    (hx : ∀ candidate ∈ x.candidates, candidate.payloadBytes ≤ fas1MaxBodyBytes)
    (hwf : ∀ unit, x.received = some unit → unit.WellFormed) : SlotState x.role d := by
  have h : SlotState x.role d ∧ (x.received ≠ none → d.subscribed = true) := by
    induction hmoves with
    | refl => exact ⟨hs, hc⟩
    | tail _ hmove ih => exact ⟨slotState_move hmove ih.1 ih.2 hx hwf, subscribed_move hmove ih.2⟩
  exact h.1

/-- What holds of a session in every reachable state. -/
structure SlotSession (options : AdmittedOptions) (s : AcousticSession) : Prop where
  /-- Only A has a COMMIT to answer. -/
  fit : acknowledging s.tasks = true → options.role = .a
  /-- The receiver is in order. -/
  slot : SlotState options.role (core s)

section Session

variable (options : AdmittedOptions) {s : AcousticSession}

/-- Every action leaves the slot to fragments of the current session. -/
theorem slotSession_act (readings : Readings) (action : Action) (h : SlotSession options s) :
    SlotSession options (act options.toAcousticSessionOptions readings action s) := by
  have hmoves : Moves ⟨options.role, core s, readings.now, none, options.candidates, True, True⟩
      (core s) (core (act options.toAcousticSessionOptions readings action s)) :=
    act_moves readings action rfl rfl rfl rfl (fun _ => trivial) (fun _ _ _ _ => trivial) h.fit
  exact ⟨fit_moves hmoves h.fit, slotState_moves hmoves h.slot (by simp) options.payload_le (by simp)⟩

/-- So does every unit of the peer. -/
theorem slotSession_deliver (readings : Readings) {unit : Fas1Unit} (hwf : unit.WellFormed)
    (h : SlotSession options s) :
    SlotSession options (deliverUnit options.toAcousticSessionOptions readings unit s) := by
  by_cases hsubscribed : s.subscribed = true
  · have hmoves : Moves
        ⟨options.role, core s, readings.now, some unit, options.candidates, True, True⟩
        (core s) (core (deliverUnit options.toAcousticSessionOptions readings unit s)) :=
      deliverUnit_moves readings rfl rfl rfl rfl rfl
    refine ⟨fit_moves hmoves h.fit,
      slotState_moves hmoves h.slot (fun _ => hsubscribed) options.payload_le ?_⟩
    rintro other hother
    obtain rfl := Option.some.inj hother
    exact hwf
  · rw [deliverUnit, if_neg hsubscribed]
    exact h

/-- So does every event. -/
theorem slotSession_step (s : AcousticSession) (event : Readings × Event)
    (h : SlotSession options s) :
    SlotSession options (step options.toAcousticSessionOptions s event) := by
  obtain ⟨readings, event⟩ := event
  cases event with
  | act action => exact slotSession_act options readings action h
  | receive raw =>
    simp only [step, receive]
    cases hdecode : decodeFas1 raw with
    | error message => exact h
    | ok unit => exact slotSession_deliver options readings (decodeFas1_wellFormed hdecode) h

/-- A session that was just made has no assembly. -/
theorem slotState_initial (role : AcousticRole) : SlotState role (core (initialSession role)) := by
  refine ⟨?_, ?_, ?_, ?_⟩
  · intro direction candidate h
    cases direction <;> simp [core, initialSession, PerDirection.get] at h
  · simp [core, initialSession]
  · simp [core, initialSession]
  · simp [core, initialSession]

/-- The slot is empty at first. -/
theorem slotSession_initial : SlotSession options (initialSession options.role) :=
  ⟨by simp [initialSession, acknowledging, chainAcknowledges], slotState_initial options.role⟩

/-- The assembly slot is in order in every reachable state. -/
theorem slotSession_run (events : List (Readings × Event)) :
    SlotSession options (runSession options.toAcousticSessionOptions events) :=
  invariant (step options.toAcousticSessionOptions) (slotSession_step options)
    (slotSession_initial options) events

end Session

section Arrival

variable {options : AcousticSessionOptions} {readings : Readings} {s : AcousticSession}

/-- Neither the active packet nor the assembly expires at a time. -/
structure Unexpired (now : ℕ) (s : AcousticSession) : Prop where
  /-- The active packet stays. -/
  active : ∀ pending, s.delivery.active = some pending → now ≤ pending.expiresAt
  /-- The assembly stays. -/
  inbound : ∀ inbound, s.delivery.inbound = some inbound → now ≤ inbound.expiresAt

/-- The core after expired queue entries and delivered identifiers are dropped. -/
def expiredCore (now : ℕ) (c : Core) : Core :=
  { c with
    delivery.queues :=
      ⟨retained now c.delivery.queues.control, retained now c.delivery.queues.heartbeat,
        retained now c.delivery.queues.ordinary⟩
    delivery.delivered := c.delivery.delivered.filter (fun entry => entry.2 ≥ now) }

/-- Where nothing that is in use has expired, expiring work is a matter of filters. -/
theorem expireWork_core (options : AcousticSessionOptions) {now : ℕ} (h : Unexpired now s) :
    core (expireWork options now s) = expiredCore now (core s) := by
  have hactive : expireActive options now (expireQueues now s) = expireQueues now s := by
    unfold expireActive
    split
    · rfl
    · next active hactive =>
      rw [if_neg]
      have := h.active active hactive
      omega
  unfold expireWork
  rw [hactive]
  unfold expireInbound
  dsimp only
  split
  · rfl
  · next inbound hinbound =>
    rw [if_neg]
    · rfl
    · have := h.inbound inbound hinbound
      omega

/-- A receiver that will look at a fragment. -/
structure Receiving (role : AcousticRole) (sessionId payloadBytes : ℕ) (c : Core) : Prop where
  /-- The session is ready. -/
  state : c.state = .ready
  /-- The session the fragments belong to. -/
  session : c.sessionId = some sessionId
  /-- The peer owns the turn. -/
  owner : c.delivery.turnOwner = some (complement role)
  /-- Units are delivered to the session. -/
  subscribed : c.subscribed = true
  /-- The committed payload size. -/
  payload : ∃ settings, c.settings = some settings ∧ payloadBytes = inboundPayload role settings

/-- A fragment of the peer reaches its handler. -/
theorem deliverUnit_data {unit : Fas1Unit} (hsubscribed : s.subscribed = true)
    (hflags : unit.flags = senderFlag (complement options.role)) (htype : unit.type = .data)
    {t : AcousticSession} (h : onData options readings unit s = .ok t) :
    core (deliverUnit options readings unit s) = core t := by
  have hhandle : handleUnit options readings unit s = .ok t := by
    rw [handleUnit, htype]
    exact h
  rw [deliverUnit, if_pos hsubscribed, receiveUnit, if_neg (not_not.mpr hflags), hhandle]
  simp only [noteLiveness]
  split
  · rw [armHeartbeatTimers_core]
  · rfl

/-- What a receiving session does with a fragment: nothing expires in it, so only the tests on the
packet itself are left. -/
theorem onData_receiving {unit : Fas1Unit} {payloadBytes : ℕ} (hun : Unexpired readings.now s)
    (hrec : Receiving options.role unit.sessionId payloadBytes (core s))
    (hcount : unit.fragmentCount = ceilDivide unit.packetLength payloadBytes)
    (hlength : unit.body.length =
      expectedLength unit.packetLength payloadBytes unit.fragmentCount unit.fragmentIndex) :
    ∃ t, onData options readings unit s = .ok t ∧ core t =
      if wasDelivered unit.packetId (expireWork options readings.now s) then
        { expiredCore readings.now (core s) with
          delivery.lastAck := some ⟨unit.packetId, fullMask unit.fragmentCount⟩ }
      else if s.delivery.inbound.any (conflicts unit) then expiredCore readings.now (core s)
      else
        core (completeAssembly readings.now unit.sessionId payloadBytes unit
          (storeFragment readings.now unit (expireWork options readings.now s)).1
          (storeFragment readings.now unit (expireWork options readings.now s)).2) := by
  have hcore := expireWork_core options hun
  unfold onData
  generalize expireWork options readings.now s = t at hcore ⊢
  have hstate : t.state = .ready := (congrArg Core.state hcore).trans hrec.state
  have hsession : t.link.sessionId = some unit.sessionId :=
    (congrArg Core.sessionId hcore).trans hrec.session
  have howner : t.delivery.turnOwner = some (complement options.role) :=
    (congrArg (fun c : Core => c.delivery.turnOwner) hcore).trans hrec.owner
  have hinbound : t.delivery.inbound = s.delivery.inbound :=
    congrArg (fun c : Core => c.delivery.inbound) hcore
  dsimp only
  rw [if_neg (by simp [hstate, hsession, howner])]
  split
  · exact ⟨_, rfl, congrArg (fun c : Core => { c with
      delivery.lastAck := some (LastAck.mk unit.packetId (fullMask unit.fragmentCount)) }) hcore⟩
  · rw [hinbound]
    split
    · exact ⟨_, rfl, hcore⟩
    · obtain ⟨settings, hsettings, hpayload⟩ := hrec.payload
      have hsettings' : t.commitment.settings = some settings :=
        (congrArg Core.settings hcore).trans hsettings
      have hbytes : inboundPayloadBytes options t = .ok payloadBytes := by
        rw [inboundPayloadBytes, hsettings', hpayload]
        unfold inboundOf inboundPayload
        cases options.role <;> rfl
      rw [hbytes, ok_bind, if_neg (by rw [hlength, hcount]; simp)]
      exact ⟨_, rfl, rfl⟩

/-- The core after a fragment is stored and a complete assembly is delivered. -/
theorem completeAssembly_core {now : ℕ} {unit : Fas1Unit} {shape : PacketShape}
    {inbound : InboundAssembly} (hinbound : inbound = assemblyAfter now unit s.delivery)
    (hpayload : 1 ≤ shape.payloadBytes ∧ shape.payloadBytes ≤ fas1MaxBodyBytes)
    (hcollects : Collects shape inbound) (hfresh : wasDelivered unit.packetId s = false) :
    core (completeAssembly now unit.sessionId shape.payloadBytes unit
      (storeFragment now unit s).1 (storeFragment now unit s).2) =
      if inbound.fragments.length ≠ inbound.fragmentCount then
        { core s with
          delivery.inbound := some inbound
          delivery.lastAck := some ⟨unit.packetId, bitmapOf inbound.fragments⟩ }
      else
        { core s with
          delivery.inbound := none
          delivery.lastAck := some ⟨unit.packetId, bitmapOf inbound.fragments⟩
          delivery.delivered :=
            remember unit.packetId (now + maxPacketAgeMs) s.delivery.delivered
          packets := s.io.packets ++ [⟨s.link.generation, unit.sessionId, unit.packetId,
            joined inbound.fragments shape.count⟩] } := by
  have hcore := storeFragment_core now unit s
  have hstored : (storeFragment now unit s).1 = inbound := by
    rw [storeFragment_fst, hinbound]
    rfl
  have hdelivered : wasDelivered unit.packetId (storeFragment now unit s).2 = false := by
    have hsame : (storeFragment now unit s).2.delivery.delivered = s.delivery.delivered :=
      congrArg (fun c : Core => c.delivery.delivered) hcore
    rw [wasDelivered, hsame]
    exact hfresh
  rw [show withFragment (assemblyFor now unit s.delivery.inbound) unit = inbound from
    hinbound.symm] at hcore
  rw [hstored]
  unfold completeAssembly
  by_cases hcomplete : inbound.fragments.length ≠ inbound.fragmentCount
  · rw [if_pos hcomplete, if_pos hcomplete]
    exact hcore
  · rw [if_neg hcomplete, if_neg hcomplete]
    have hok := reassemblePacket_complete hpayload hcollects.fits hcollects.nodup
      ((not_not.mp hcomplete).trans hcollects.fragmentCount) hcollects.nonempty
    rw [hok.1]
    dsimp only
    rw [if_neg (by rw [hok.2, hcollects.packetLength, hdelivered]; simp)]
    exact congrArg (fun c : Core => { c with
      delivery.inbound := none
      delivery.delivered := remember unit.packetId (now + maxPacketAgeMs) c.delivery.delivered
      packets := c.packets ++ [DeliveredPacket.mk c.generation unit.sessionId unit.packetId
        (joined inbound.fragments shape.count)] }) hcore

/-- The identifier remembered last is there. -/
theorem mem_remember (packetId expiresAt : ℕ) (delivered : List (ℕ × ℕ)) :
    (packetId, expiresAt) ∈ remember packetId expiresAt delivered := by
  unfold remember
  dsimp only
  rw [List.drop_append_of_le_length (by simp [maxDeliveredIds])]
  simp

end Arrival

/-- Fragments held in the slot. -/
def held (c : Core) : List Fas1Unit :=
  match c.delivery.inbound with
  | none => []
  | some inbound => inbound.fragments

/-- The slot holds nothing but fragments of a packet. -/
def SlotMatches (input : FragmentPacketInput) (inbound : InboundAssembly) : Prop :=
  inbound.packetId = input.packetId ∧ inbound.fragmentCount = input.shape.count ∧
    inbound.packetLength = input.packet.length ∧
    ∀ fragment ∈ inbound.fragments,
      fragment.body = chunk input.packet input.payloadBytes fragment.fragmentIndex

/-- A receiver to which a packet is being sent, from a first state on and at
certain times. -/
structure Steady (role : AcousticRole) (input : FragmentPacketInput) (start c : Core) : Prop where
  /-- It looks at the fragments. -/
  receiving : Receiving role input.sessionId input.payloadBytes c
  /-- It was not reset. -/
  generation : c.generation = start.generation
  /-- Its own packet is the same. -/
  active : c.delivery.active = start.delivery.active

/-- The fragments of the packet cannot be stored. -/
structure Blocked (input : FragmentPacketInput) (times : List ℕ) (start c : Core) : Prop where
  /-- Nothing was delivered. -/
  packets : c.packets = start.packets
  /-- The packet was not delivered before. -/
  fresh : ∀ entry ∈ c.delivery.delivered, entry.1 ≠ input.packetId
  /-- The slot is taken by another packet or another geometry. -/
  slot : ∃ inbound, c.delivery.inbound = some inbound ∧ (∀ now ∈ times, now ≤ inbound.expiresAt) ∧
    ¬(inbound.packetId = input.packetId ∧ inbound.fragmentCount = input.shape.count ∧
      inbound.packetLength = input.packet.length)

/-- Some fragments of the packet are still missing. -/
structure Collecting (input : FragmentPacketInput) (times : List ℕ) (start : Core)
    (seen : ℕ → Prop) (c : Core) : Prop where
  /-- Nothing was delivered. -/
  packets : c.packets = start.packets
  /-- The packet was not delivered before. -/
  fresh : ∀ entry ∈ c.delivery.delivered, entry.1 ≠ input.packetId
  /-- The slot collects the shape of the packet. -/
  slot : ∀ inbound, c.delivery.inbound = some inbound → Collects input.shape inbound ∧
    inbound.fragments.length < inbound.fragmentCount ∧ ∀ now ∈ times, now ≤ inbound.expiresAt
  /-- What was held at first is held. -/
  kept : ∀ fragment ∈ held start, fragment ∈ held c
  /-- What is held was held at first or is of the packet. -/
  origin : ∀ fragment ∈ held c, fragment ∈ held start ∨
    fragment.body = chunk input.packet input.payloadBytes fragment.fragmentIndex
  /-- What arrived is held. -/
  arrived : ∀ index, seen index → ∃ fragment ∈ held c, fragment.fragmentIndex = index

/-- A packet was delivered under the identifier. -/
structure Finished (input : FragmentPacketInput) (times : List ℕ) (start c : Core) : Prop where
  /-- One packet was delivered, the right one if the slot held nothing else. -/
  packets : ∃ packet, c.packets =
      start.packets ++ [⟨start.generation, input.sessionId, input.packetId, packet⟩] ∧
    (packet = input.packet ↔ ∀ fragment ∈ held start,
      fragment.body = chunk input.packet input.payloadBytes fragment.fragmentIndex)
  /-- The slot is empty. -/
  slot : c.delivery.inbound = none
  /-- The identifier is remembered. -/
  remembered : ∃ entry ∈ c.delivery.delivered, entry.1 = input.packetId ∧
    ∀ now ∈ times, now ≤ entry.2

section Transfer

variable {options : AcousticSessionOptions} {input : FragmentPacketInput} {times : List ℕ}
  {start : Core} {readings : Readings} {s : AcousticSession} {index : ℕ}

/-- A receiver is steady by what it is read off. -/
theorem Steady.of_eq {role : AcousticRole} {c d : Core} (h : Steady role input start c)
    (hstate : d.state = c.state) (hsession : d.sessionId = c.sessionId)
    (howner : d.delivery.turnOwner = c.delivery.turnOwner)
    (hsubscribed : d.subscribed = c.subscribed) (hsettings : d.settings = c.settings)
    (hgeneration : d.generation = c.generation)
    (hactive : d.delivery.active = c.delivery.active) : Steady role input start d :=
  ⟨⟨hstate.trans h.receiving.state, hsession.trans h.receiving.session,
    howner.trans h.receiving.owner, hsubscribed.trans h.receiving.subscribed,
    by rw [hsettings]; exact h.receiving.payload⟩,
    hgeneration.trans h.generation, hactive.trans h.active⟩

/-- What the arrival of one fragment does to the core of a steady receiver. -/
theorem deliver_steady (hadmissible : input.Admissible)
    (hsender : input.sender = senderFlag (complement options.role))
    (hsteady : Steady options.role input start (core s)) (hun : Unexpired readings.now s)
    (hindex : index < input.shape.count) :
    core (deliverUnit options readings (fragmentAt input index) s) =
      if wasDelivered input.packetId (expireWork options readings.now s) then
        { expiredCore readings.now (core s) with
          delivery.lastAck := some ⟨input.packetId, fullMask input.shape.count⟩ }
      else if s.delivery.inbound.any (conflicts (fragmentAt input index)) then
        expiredCore readings.now (core s)
      else
        core (completeAssembly readings.now input.sessionId input.payloadBytes
          (fragmentAt input index)
          (storeFragment readings.now (fragmentAt input index)
            (expireWork options readings.now s)).1
          (storeFragment readings.now (fragmentAt input index)
            (expireWork options readings.now s)).2) := by
  have hlength : (fragmentAt input index).body.length = expectedLength
      (fragmentAt input index).packetLength input.payloadBytes
      (fragmentAt input index).fragmentCount (fragmentAt input index).fragmentIndex :=
    chunk_length hadmissible.payloadBytes.1 hadmissible.packet.1 hindex
  obtain ⟨t, ht, hcore⟩ := onData_receiving hun
    (show Receiving options.role (fragmentAt input index).sessionId input.payloadBytes (core s)
      from hsteady.receiving) rfl hlength
  rw [deliverUnit_data hsteady.receiving.subscribed hsender rfl ht, hcore]
  rfl

/-- The delivered identifiers still known after expiry are those that have not expired. -/
theorem wasDelivered_expireWork (hun : Unexpired readings.now s) (packetId : ℕ) :
    wasDelivered packetId (expireWork options readings.now s) = true ↔
      ∃ entry ∈ s.delivery.delivered, entry.1 = packetId ∧ readings.now ≤ entry.2 := by
  have hdelivered : (expireWork options readings.now s).delivery.delivered =
      s.delivery.delivered.filter (fun entry => entry.2 ≥ readings.now) :=
    congrArg (fun c : Core => c.delivery.delivered) (expireWork_core options hun)
  rw [wasDelivered_iff, hdelivered]
  simp only [List.mem_filter, decide_eq_true_eq, ge_iff_le, and_assoc, and_comm]

/-- Nothing expires at one of the times. -/
theorem unexpired_of_times (hsteady : Steady options.role input start (core s))
    (hactive : ∀ pending, start.delivery.active = some pending →
      ∀ now ∈ times, now ≤ pending.expiresAt)
    (hinbound : ∀ inbound, s.delivery.inbound = some inbound →
      ∀ now ∈ times, now ≤ inbound.expiresAt)
    (htime : readings.now ∈ times) : Unexpired readings.now s := by
  refine ⟨?_, fun inbound h => hinbound inbound h _ htime⟩
  intro pending hpending
  exact hactive pending (hsteady.active ▸ hpending) _ htime

/-- A blocked receiver drops every fragment of the packet. -/
theorem blocked_step (hadmissible : input.Admissible)
    (hsender : input.sender = senderFlag (complement options.role))
    (hactive : ∀ pending, start.delivery.active = some pending →
      ∀ now ∈ times, now ≤ pending.expiresAt)
    (htime : readings.now ∈ times) (hindex : index < input.shape.count)
    (hsteady : Steady options.role input start (core s)) (h : Blocked input times start (core s)) :
    Steady options.role input start (core (deliverUnit options readings (fragmentAt input index) s)) ∧
      Blocked input times start (core (deliverUnit options readings (fragmentAt input index) s)) := by
  obtain ⟨inbound, hinbound, hexpires, hother⟩ := h.slot
  have hinbound' : s.delivery.inbound = some inbound := hinbound
  have hun := unexpired_of_times hsteady hactive (fun other hsome => by
    obtain rfl := Option.some.inj (hinbound'.symm.trans hsome)
    exact hexpires) htime
  have hfresh : ¬wasDelivered input.packetId (expireWork options readings.now s) = true := by
    rw [wasDelivered_expireWork hun]
    rintro ⟨entry, hmem, heq, -⟩
    exact h.fresh entry hmem heq
  have hconflict : s.delivery.inbound.any (conflicts (fragmentAt input index)) = true := by
    rw [hinbound', Option.any_some, ← Bool.not_eq_false, agrees_iff]
    exact hother
  rw [deliver_steady hadmissible hsender hsteady hun hindex, if_neg hfresh, if_pos hconflict]
  refine ⟨hsteady.of_eq rfl rfl rfl rfl rfl rfl rfl, h.packets, ?_, inbound, hinbound, hexpires,
    hother⟩
  intro entry hmem
  exact h.fresh entry (List.mem_of_mem_filter hmem)

/-- After the delivery every fragment of the packet is a duplicate. -/
theorem finished_step (hadmissible : input.Admissible)
    (hsender : input.sender = senderFlag (complement options.role))
    (hactive : ∀ pending, start.delivery.active = some pending →
      ∀ now ∈ times, now ≤ pending.expiresAt)
    (htime : readings.now ∈ times) (hindex : index < input.shape.count)
    (hsteady : Steady options.role input start (core s)) (h : Finished input times start (core s)) :
    Steady options.role input start (core (deliverUnit options readings (fragmentAt input index) s)) ∧
      Finished input times start (core (deliverUnit options readings (fragmentAt input index) s)) := by
  have hempty : s.delivery.inbound = none := h.slot
  have hun := unexpired_of_times hsteady hactive (by simp [hempty]) htime
  obtain ⟨entry, hmem, heq, hexpires⟩ := h.remembered
  have hdelivered : wasDelivered input.packetId (expireWork options readings.now s) = true :=
    (wasDelivered_expireWork hun _).mpr ⟨entry, hmem, heq, hexpires _ htime⟩
  rw [deliver_steady hadmissible hsender hsteady hun hindex, if_pos hdelivered]
  exact ⟨hsteady.of_eq rfl rfl rfl rfl rfl rfl rfl, h.packets, h.slot, entry,
    List.mem_filter.mpr ⟨hmem, by simpa using hexpires _ htime⟩, heq, hexpires⟩

/-- Fragments held once one more is stored. -/
theorem mem_held_after {fragment : Fas1Unit} {now : ℕ} {unit : Fas1Unit} {c : Core} :
    fragment ∈ held c → fragment ∈ (assemblyAfter now unit c.delivery).fragments := by
  unfold held assemblyAfter
  cases hinbound : c.delivery.inbound with
  | none => simp
  | some inbound =>
    intro hmem
    change fragment ∈ (withFragment inbound unit).fragments
    unfold withFragment
    split
    · exact hmem
    · exact List.mem_append_left _ hmem

/-- The slot holds no more than it held and the fragment. -/
theorem mem_after {fragment : Fas1Unit} {now : ℕ} {unit : Fas1Unit} {c : Core}
    (h : fragment ∈ (assemblyAfter now unit c.delivery).fragments) :
    fragment ∈ held c ∨ fragment = unit := by
  unfold assemblyAfter at h
  unfold held
  rcases mem_withFragment h with h | h
  · cases hinbound : c.delivery.inbound with
    | none => simp [hinbound, assemblyFor] at h
    | some inbound =>
      rw [hinbound] at h
      exact .inl h
  · exact .inr h

/-- The index of a stored fragment is held. -/
theorem index_held_after (now : ℕ) (unit : Fas1Unit) (c : Core) :
    ∃ fragment ∈ (assemblyAfter now unit c.delivery).fragments,
      fragment.fragmentIndex = unit.fragmentIndex := by
  have h := holdsIndex_withFragment (assemblyFor now unit c.delivery.inbound) unit unit.fragmentIndex
  simpa [holdsIndex, assemblyAfter] using h

/-- With the fragment the slot still collects the shape of the packet. -/
theorem Collecting.collects {seen : ℕ → Prop} {c : Core} {role : AcousticRole}
    (h : Collecting input times start seen c) (now : ℕ) (hadmissible : input.Admissible)
    (hsender : input.sender = senderFlag (complement role)) (hindex : index < input.shape.count) :
    Collects input.shape (assemblyAfter now (fragmentAt input index) c.delivery) := by
  have hflags : input.sender = fas1SenderA ∨ input.sender = fas1SenderB := by
    rw [hsender]
    cases role <;> simp [complement, senderFlag]
  exact collects_withFragment now (fragmentAt_fits hadmissible hflags hindex)
    (fun existing hsome => (h.slot existing hsome).1)

/-- With the fragment the slot still holds nothing but what it held at first and the packet. -/
theorem Collecting.origin_after {seen : ℕ → Prop} {c : Core}
    (h : Collecting input times start seen c) (now index : ℕ) :
    ∀ fragment ∈ (assemblyAfter now (fragmentAt input index) c.delivery).fragments,
      fragment ∈ held start ∨
        fragment.body = chunk input.packet input.payloadBytes fragment.fragmentIndex := by
  intro fragment hmem
  rcases mem_after hmem with hmem | rfl
  · exact h.origin fragment hmem
  · exact .inr rfl

/-- What the arrival of one fragment does to the core of a collecting receiver. It agrees with what
the slot holds, since all of that is the packet's. -/
theorem deliver_collecting (hadmissible : input.Admissible)
    (hsender : input.sender = senderFlag (complement options.role))
    (hun : Unexpired readings.now s) (hindex : index < input.shape.count) {seen : ℕ → Prop}
    (hsteady : Steady options.role input start (core s))
    (h : Collecting input times start seen (core s)) {inbound : InboundAssembly}
    (hinbound : inbound =
      assemblyAfter readings.now (fragmentAt input index) (core s).delivery) :
    core (deliverUnit options readings (fragmentAt input index) s) =
      if inbound.fragments.length ≠ inbound.fragmentCount then
        { expiredCore readings.now (core s) with
          delivery.inbound := some inbound
          delivery.lastAck := some ⟨input.packetId, bitmapOf inbound.fragments⟩ }
      else
        { expiredCore readings.now (core s) with
          delivery.inbound := none
          delivery.lastAck := some ⟨input.packetId, bitmapOf inbound.fragments⟩
          delivery.delivered := remember input.packetId (readings.now + maxPacketAgeMs)
            (expiredCore readings.now (core s)).delivery.delivered
          packets := start.packets ++ [⟨start.generation, input.sessionId, input.packetId,
            joined inbound.fragments input.shape.count⟩] } := by
  have hfresh : wasDelivered input.packetId (expireWork options readings.now s) = false := by
    rw [← Bool.not_eq_true, wasDelivered_expireWork hun]
    rintro ⟨entry, hmem, heq, -⟩
    exact h.fresh entry hmem heq
  have hagree : s.delivery.inbound.any (conflicts (fragmentAt input index)) = false := by
    cases hslot : s.delivery.inbound with
    | none => rfl
    | some existing =>
      have hcollects := (h.slot existing hslot).1
      exact agrees_iff.mpr ⟨hcollects.packetId, hcollects.fragmentCount, hcollects.packetLength⟩
  have hexpired := expireWork_core options hun
  have hslot : (expireWork options readings.now s).delivery.inbound = s.delivery.inbound :=
    congrArg (fun c : Core => c.delivery.inbound) hexpired
  have hafter : inbound = assemblyAfter readings.now (fragmentAt input index)
      (expireWork options readings.now s).delivery := by
    rw [hinbound, assemblyAfter, assemblyAfter, hslot]
    rfl
  have hcollects : Collects input.shape inbound := by
    rw [hinbound]
    exact h.collects readings.now hadmissible hsender hindex
  have hcore := completeAssembly_core hafter
    ⟨hadmissible.payloadBytes.1, hadmissible.payloadBytes.2⟩ hcollects hfresh
  have hpackets : (expireWork options readings.now s).io.packets = start.packets :=
    (congrArg Core.packets hexpired).trans h.packets
  have hgeneration : (expireWork options readings.now s).link.generation = start.generation :=
    (congrArg Core.generation hexpired).trans hsteady.generation
  have hdelivered : (expireWork options readings.now s).delivery.delivered =
      (expiredCore readings.now (core s)).delivery.delivered :=
    congrArg (fun c : Core => c.delivery.delivered) hexpired
  rw [hexpired, hpackets, hgeneration, hdelivered] at hcore
  rw [deliver_steady hadmissible hsender hsteady hun hindex, hfresh, if_neg (by simp), hagree,
    if_neg (by simp)]
  exact hcore.trans rfl

/-- A collecting receiver stores the fragment, and delivers the packet with the last one. Which of
the two is told by the number of fragments held. -/
theorem collecting_step (hadmissible : input.Admissible)
    (hsender : input.sender = senderFlag (complement options.role))
    (hactive : ∀ pending, start.delivery.active = some pending →
      ∀ now ∈ times, now ≤ pending.expiresAt)
    (hspan : ∀ now ∈ times, ∀ later ∈ times, later ≤ now + maxPacketAgeMs)
    (htime : readings.now ∈ times) (hindex : index < input.shape.count) {seen : ℕ → Prop}
    (hsteady : Steady options.role input start (core s))
    (h : Collecting input times start seen (core s)) :
    Steady options.role input start (core (deliverUnit options readings (fragmentAt input index) s)) ∧
      (Collecting input times start (fun other => seen other ∨ other = index)
          (core (deliverUnit options readings (fragmentAt input index) s)) ∨
        Finished input times start
          (core (deliverUnit options readings (fragmentAt input index) s))) := by
  have hun := unexpired_of_times hsteady hactive (fun inbound hsome => (h.slot inbound hsome).2.2)
    htime
  have hcollects := h.collects readings.now hadmissible hsender hindex
  have horigin := h.origin_after readings.now index
  have hkept : ∀ fragment ∈ held start, fragment ∈ (assemblyAfter readings.now
      (fragmentAt input index) (core s).delivery).fragments :=
    fun fragment hmem => mem_held_after (h.kept fragment hmem)
  rw [deliver_collecting hadmissible hsender hun hindex hsteady h rfl]
  split
  · next hincomplete =>
    refine ⟨hsteady.of_eq rfl rfl rfl rfl rfl rfl rfl, .inl ⟨h.packets, ?_, ?_, hkept, horigin, ?_⟩⟩
    · intro entry hmem
      exact h.fresh entry (List.mem_of_mem_filter hmem)
    · intro inbound hsome
      obtain rfl := Option.some.inj hsome
      refine ⟨hcollects, lt_of_le_of_ne hcollects.length_le hincomplete, ?_⟩
      intro now hnow
      rw [assemblyAfter, (withFragment_fields _ _).2.2.2]
      cases hslot : (core s).delivery.inbound with
      | none => exact hspan _ htime _ hnow
      | some existing => exact (h.slot existing hslot).2.2 now hnow
    · rintro other (hseen | rfl)
      · obtain ⟨fragment, hmem, heq⟩ := h.arrived other hseen
        exact ⟨fragment, mem_held_after hmem, heq⟩
      · exact index_held_after readings.now (fragmentAt input other) (core s)
  · next hcomplete =>
    rw [not_not] at hcomplete
    have hlength := hcomplete.trans hcollects.fragmentCount
    refine ⟨hsteady.of_eq rfl rfl rfl rfl rfl rfl rfl, .inr ⟨⟨joined (assemblyAfter readings.now
      (fragmentAt input index) (core s).delivery).fragments input.shape.count, rfl, ?_⟩, rfl,
      ⟨input.packetId, readings.now + maxPacketAgeMs⟩, mem_remember _ _ _, rfl,
      fun now hnow => hspan _ htime _ hnow⟩⟩
    rw [joined_eq_iff rfl hadmissible.payloadBytes.1 hadmissible.packet.1 hcollects.fits
      hcollects.nodup hlength]
    constructor
    · exact fun hall fragment hmem => hall fragment (hkept fragment hmem)
    · intro hall fragment hmem
      rcases horigin fragment hmem with hheld | hbody
      · exact hall fragment hheld
      · exact hbody

/-- The whole packet has arrived when every fragment has. -/
theorem not_collecting_of_all {c : Core} {seen : ℕ → Prop}
    (h : Collecting input times start seen c) (hcount : 1 ≤ input.shape.count)
    (hseen : ∀ index, index < input.shape.count → seen index) : False := by
  cases hinbound : c.delivery.inbound with
  | none =>
    obtain ⟨fragment, hmem, -⟩ := h.arrived 0 (hseen 0 hcount)
    simp [held, hinbound] at hmem
  | some inbound =>
    obtain ⟨hcollects, hincomplete, -⟩ := h.slot inbound hinbound
    have hsubset : Finset.range input.shape.count ⊆
        (inbound.fragments.map (·.fragmentIndex)).toFinset := by
      intro index hindex
      obtain ⟨fragment, hmem, heq⟩ := h.arrived index (hseen index (Finset.mem_range.mp hindex))
      simp only [held, hinbound] at hmem
      rw [List.mem_toFinset, List.mem_map]
      exact ⟨fragment, hmem, heq⟩
    have hcard := Finset.card_le_card hsubset
    rw [Finset.card_range, List.toFinset_card_of_nodup hcollects.nodup, List.length_map,
      ← hcollects.fragmentCount] at hcard
    omega

/-- An event that brings a fragment of a packet. -/
def Brings (input : FragmentPacketInput) (index : ℕ) (event : Readings × Event) : Prop :=
  ∃ raw, encodeFas1 (fragmentAt input index) = .ok raw ∧ event.2 = .receive raw

/-- The state after a fragment is brought. -/
theorem step_brings {event : Readings × Event} (h : Brings input index event) :
    step options s event = deliverUnit options event.1 (fragmentAt input index) s := by
  obtain ⟨raw, hraw, hevent⟩ := h
  obtain ⟨readings, event⟩ := event
  subst hevent
  exact receive_encoded options readings hraw s

/-- Fragments never get through a blocked receiver. -/
theorem blocked_run (hadmissible : input.Admissible)
    (hsender : input.sender = senderFlag (complement options.role))
    (hactive : ∀ pending, start.delivery.active = some pending →
      ∀ now ∈ times, now ≤ pending.expiresAt)
    {arrivals : List (Readings × Event)} (htimes : ∀ event ∈ arrivals, event.1.now ∈ times)
    (hbrings : ∀ event ∈ arrivals, ∃ index < input.shape.count, Brings input index event)
    (hsteady : Steady options.role input start (core s)) (h : Blocked input times start (core s)) :
    Blocked input times start (core (run (step options) s arrivals)) := by
  induction arrivals generalizing s with
  | nil => exact h
  | cons event arrivals ih =>
    obtain ⟨index, hindex, hevent⟩ := hbrings event List.mem_cons_self
    have hnext := blocked_step hadmissible hsender hactive
      (htimes event List.mem_cons_self) hindex hsteady h
    rw [← step_brings hevent] at hnext
    exact ih (fun e he => htimes e (List.mem_cons_of_mem _ he))
      (fun e he => hbrings e (List.mem_cons_of_mem _ he)) hnext.1 hnext.2

/-- Once the packet was delivered, every further fragment of it is a duplicate. -/
theorem finished_run (hadmissible : input.Admissible)
    (hsender : input.sender = senderFlag (complement options.role))
    (hactive : ∀ pending, start.delivery.active = some pending →
      ∀ now ∈ times, now ≤ pending.expiresAt)
    {arrivals : List (Readings × Event)} (htimes : ∀ event ∈ arrivals, event.1.now ∈ times)
    (hbrings : ∀ event ∈ arrivals, ∃ index < input.shape.count, Brings input index event)
    (hsteady : Steady options.role input start (core s)) (h : Finished input times start (core s)) :
    Finished input times start (core (run (step options) s arrivals)) := by
  induction arrivals generalizing s with
  | nil => exact h
  | cons event arrivals ih =>
    obtain ⟨index, hindex, hevent⟩ := hbrings event List.mem_cons_self
    have hnext := finished_step hadmissible hsender hactive
      (htimes event List.mem_cons_self) hindex hsteady h
    rw [← step_brings hevent] at hnext
    exact ih (fun e he => htimes e (List.mem_cons_of_mem _ he))
      (fun e he => hbrings e (List.mem_cons_of_mem _ he)) hnext.1 hnext.2

/-- A collecting receiver to which every missing fragment is brought finishes. By induction over the
arrivals; once it has finished, repeats change nothing. -/
theorem collecting_run (hadmissible : input.Admissible)
    (hsender : input.sender = senderFlag (complement options.role))
    (hactive : ∀ pending, start.delivery.active = some pending →
      ∀ now ∈ times, now ≤ pending.expiresAt)
    (hspan : ∀ now ∈ times, ∀ later ∈ times, later ≤ now + maxPacketAgeMs)
    {arrivals : List (Readings × Event)} (htimes : ∀ event ∈ arrivals, event.1.now ∈ times)
    (hbrings : ∀ event ∈ arrivals, ∃ index < input.shape.count, Brings input index event)
    {seen : ℕ → Prop}
    (hall : ∀ index, index < input.shape.count →
      seen index ∨ ∃ event ∈ arrivals, Brings input index event)
    (hsteady : Steady options.role input start (core s))
    (h : Collecting input times start seen (core s)) :
    Finished input times start (core (run (step options) s arrivals)) := by
  induction arrivals generalizing s seen with
  | nil =>
    refine absurd ?_ (not_collecting_of_all h hadmissible.count.1)
    intro index hindex
    simpa using hall index hindex
  | cons event arrivals ih =>
    obtain ⟨index, hindex, hevent⟩ := hbrings event List.mem_cons_self
    have hnext := collecting_step hadmissible hsender hactive hspan
      (htimes event List.mem_cons_self) hindex hsteady h
    rw [← step_brings hevent] at hnext
    have htimes' : ∀ e ∈ arrivals, e.1.now ∈ times :=
      fun e he => htimes e (List.mem_cons_of_mem _ he)
    have hbrings' : ∀ e ∈ arrivals, ∃ index < input.shape.count, Brings input index e :=
      fun e he => hbrings e (List.mem_cons_of_mem _ he)
    rw [run_cons]
    rcases hnext with ⟨hsteady', hcollecting | hfinished⟩
    · refine ih htimes' hbrings' ?_ hsteady' hcollecting
      intro other hother
      rcases hall other hother with hseen | ⟨e, he, hbring⟩
      · exact .inl (.inl hseen)
      · rcases List.mem_cons.mp he with rfl | he
        · refine .inl (.inr ?_)
          obtain ⟨raw, hraw, hreceive⟩ := hbring
          obtain ⟨raw', hraw', hreceive'⟩ := hevent
          have hsame : raw = raw' := by
            rw [hreceive] at hreceive'
            exact Event.receive.inj hreceive'
          have hdecode := decodeFas1_encodeFas1 hraw
          rw [hsame, decodeFas1_encodeFas1 hraw'] at hdecode
          exact congrArg Fas1Unit.fragmentIndex (Except.ok.inj hdecode).symm
        · exact .inr ⟨e, he, hbring⟩
    · exact finished_run hadmissible hsender hactive htimes' hbrings' hsteady' hfinished

end Transfer

/-- A packet is offered whole to a receiver of the current session: every unit that
arrives is a fragment of it, every fragment arrives, and nothing expires meanwhile. -/
structure OffersPacket (options : AcousticSessionOptions) (s : AcousticSession)
    (input : FragmentPacketInput) (arrivals : List (Readings × Event)) : Prop where
  /-- The receiver is ready. -/
  state : s.state = .ready
  /-- The peer owns the turn. -/
  owner : s.delivery.turnOwner = some (complement options.role)
  /-- The packet belongs to the session. -/
  session : s.link.sessionId = some input.sessionId
  /-- The peer sends it. -/
  sender : input.sender = senderFlag (complement options.role)
  /-- It is cut with the committed payload size. -/
  payload : ∃ settings, s.commitment.settings = some settings ∧
    input.payloadBytes = inboundPayload options.role settings
  /-- Its identifier was not delivered. -/
  fresh : ∀ entry ∈ s.delivery.delivered, entry.1 ≠ input.packetId
  /-- It can be cut. -/
  cut : ∃ fragments, fragmentPacket input = .ok fragments
  /-- Only its fragments arrive. -/
  only : ∀ event ∈ arrivals, ∃ index < input.shape.count, Brings input index event
  /-- All its fragments arrive. -/
  all : ∀ index < input.shape.count, ∃ event ∈ arrivals, Brings input index event
  /-- The own packet does not expire. -/
  active : ∀ pending, s.delivery.active = some pending →
    ∀ event ∈ arrivals, event.1.now ≤ pending.expiresAt
  /-- The assembly does not expire. -/
  inbound : ∀ inbound, s.delivery.inbound = some inbound →
    ∀ event ∈ arrivals, event.1.now ≤ inbound.expiresAt
  /-- The arrivals lie within the age of a packet. -/
  span : ∀ event ∈ arrivals, ∀ later ∈ arrivals, later.1.now ≤ event.1.now + maxPacketAgeMs

/-- The packet that was offered is handed over once, and nothing else is. -/
def GetsThrough (options : AcousticSessionOptions) (s : AcousticSession)
    (input : FragmentPacketInput) (arrivals : List (Readings × Event)) : Prop :=
  (run (step options) s arrivals).io.packets =
    s.io.packets ++ [⟨s.link.generation, input.sessionId, input.packetId, input.packet⟩]

/-- In every reachable state, a packet that is offered whole gets through exactly when
the slot is empty or holds nothing but fragments of that packet. -/
theorem getsThrough_iff (options : AdmittedOptions) (events : List (Readings × Event))
    (input : FragmentPacketInput) (arrivals : List (Readings × Event))
    (h : OffersPacket options.toAcousticSessionOptions
      (runSession options.toAcousticSessionOptions events) input arrivals) :
    GetsThrough options.toAcousticSessionOptions
        (runSession options.toAcousticSessionOptions events) input arrivals ↔
      ∀ inbound, (runSession options.toAcousticSessionOptions events).delivery.inbound =
        some inbound → SlotMatches input inbound := by
  have hreach := slotSession_run options events
  generalize runSession options.toAcousticSessionOptions events = s at h hreach ⊢
  obtain ⟨fragments, hfragments⟩ := h.cut
  have hadmissible := (fragmentPacket_ok hfragments).1
  obtain ⟨settings, hsettings, hpayload⟩ := h.payload
  have hsteady : Steady options.role input (core s) (core s) :=
    ⟨⟨h.state, h.session, h.owner, hreach.slot.listening h.state, settings, hsettings, hpayload⟩,
      rfl, rfl⟩
  have hactive : ∀ pending, (core s).delivery.active = some pending →
      ∀ now ∈ arrivals.map (·.1.now), now ≤ pending.expiresAt := by
    intro pending hpending now hnow
    obtain ⟨event, hevent, rfl⟩ := List.mem_map.mp hnow
    exact h.active pending hpending event hevent
  have htimes : ∀ event ∈ arrivals, event.1.now ∈ arrivals.map (·.1.now) :=
    fun event hevent => List.mem_map_of_mem hevent
  have hspan : ∀ now ∈ arrivals.map (·.1.now), ∀ later ∈ arrivals.map (·.1.now),
      later ≤ now + maxPacketAgeMs := by
    intro now hnow later hlater
    obtain ⟨event, hevent, rfl⟩ := List.mem_map.mp hnow
    obtain ⟨other, hother, rfl⟩ := List.mem_map.mp hlater
    exact h.span event hevent other hother
  have hexpires : ∀ inbound, s.delivery.inbound = some inbound →
      ∀ now ∈ arrivals.map (·.1.now), now ≤ inbound.expiresAt := by
    intro inbound hinbound now hnow
    obtain ⟨event, hevent, rfl⟩ := List.mem_map.mp hnow
    exact h.inbound inbound hinbound event hevent
  by_cases hgeometry : ∀ inbound, s.delivery.inbound = some inbound →
      inbound.packetId = input.packetId ∧ inbound.fragmentCount = input.shape.count ∧
        inbound.packetLength = input.packet.length
  · have hcollecting : Collecting input (arrivals.map (·.1.now)) (core s) (fun _ => False)
        (core s) := by
      refine ⟨rfl, h.fresh, ?_, fun _ hmem => hmem, fun _ hmem => .inl hmem, by simp⟩
      intro inbound hinbound
      have hassembling := hreach.slot.slot inbound hinbound
      obtain ⟨other, sessionId, hother, hsession, hcollects⟩ := hassembling.collects
      obtain rfl := Option.some.inj (hsettings.symm.trans hother)
      obtain rfl := Option.some.inj (h.session.symm.trans hsession)
      obtain ⟨hid, -, hlength⟩ := hgeometry inbound hinbound
      rw [slotShape, hid, hlength, ← hpayload] at hcollects
      exact ⟨hcollects, hassembling.incomplete, hexpires inbound hinbound⟩
    have hfinished := collecting_run hadmissible h.sender hactive hspan htimes h.only
      (fun index hindex => .inr (h.all index hindex)) hsteady hcollecting
    obtain ⟨packet, hpackets, hright⟩ := hfinished.packets
    have hlog : (run (step options.toAcousticSessionOptions) s arrivals).io.packets =
        s.io.packets ++ [⟨s.link.generation, input.sessionId, input.packetId, packet⟩] := hpackets
    rw [GetsThrough, hlog, List.append_cancel_left_eq]
    have hsame : ([⟨s.link.generation, input.sessionId, input.packetId, packet⟩] =
        [(⟨s.link.generation, input.sessionId, input.packetId, input.packet⟩ : DeliveredPacket)]) ↔
        packet = input.packet := by simp
    rw [hsame, hright]
    constructor
    · intro hbodies inbound hinbound
      obtain ⟨hid, hcount, hlength⟩ := hgeometry inbound hinbound
      refine ⟨hid, hcount, hlength, fun fragment hmem => hbodies fragment ?_⟩
      have hslot : (core s).delivery.inbound = some inbound := hinbound
      simpa [held, hslot] using hmem
    · intro hmatches fragment hmem
      cases hslot : (core s).delivery.inbound with
      | none => simp [held, hslot] at hmem
      | some inbound =>
        simp only [held, hslot] at hmem
        exact (hmatches inbound hslot).2.2.2 fragment hmem
  · have hblocked : Blocked input (arrivals.map (·.1.now)) (core s) (core s) := by
      simp only [not_forall] at hgeometry
      obtain ⟨inbound, hinbound, hother⟩ := hgeometry
      exact ⟨rfl, h.fresh, inbound, hinbound, hexpires inbound hinbound, hother⟩
    have hend := blocked_run hadmissible h.sender hactive htimes h.only hsteady hblocked
    have hlog : (run (step options.toAcousticSessionOptions) s arrivals).io.packets =
        s.io.packets := hend.packets
    constructor
    · intro hthrough
      rw [GetsThrough, hlog] at hthrough
      simpa using congrArg List.length hthrough
    · intro hmatches
      exact absurd (fun inbound hinbound => ⟨(hmatches inbound hinbound).1,
        (hmatches inbound hinbound).2.1, (hmatches inbound hinbound).2.2.1⟩) hgeometry

/-- A one-byte packet offered to the bench receiver at the time zero. -/
theorem bench_offersPacket (events : List (Readings × LinkEvent)) {input : FragmentPacketInput}
    {raw : Bytes} (hraw : encodeFas1 (fragmentAt input 0) = .ok raw)
    (hstate : (runLink benchLink events).session.b.state = .ready ∧
      (runLink benchLink events).session.b.delivery.turnOwner = some .a ∧
      (runLink benchLink events).session.b.link.sessionId = some input.sessionId ∧
      (runLink benchLink events).session.b.commitment.settings = some benchSettings ∧
      ∀ entry ∈ (runLink benchLink events).session.b.delivery.delivered, entry.1 ≠ input.packetId)
    (hinput : input.sender = senderFlag .a ∧ input.payloadBytes = 1 ∧ input.packet.length = 1)
    (hcut : fragmentPacket input = .ok [fragmentAt input 0]) :
    OffersPacket (benchOptions .b) (runLink benchLink events).session.b input
      [(benchReadings .b, .receive raw)] := by
  obtain ⟨hready, howner, hsession, hsettings, hfresh⟩ := hstate
  have hcount : input.shape.count = 1 := by
    simp [PacketShape.count, FragmentPacketInput.shape, hinput.2.1, hinput.2.2, ceilDivide]
  refine ⟨hready, howner, hsession, hinput.1, ⟨benchSettings, hsettings, hinput.2.1⟩, hfresh,
    ⟨_, hcut⟩, ?_, ?_, ?_, ?_, ?_⟩
  · intro event hevent
    rw [List.mem_singleton] at hevent
    exact ⟨0, by omega, raw, hraw, by rw [hevent]⟩
  · intro index hindex
    obtain rfl : index = 0 := by omega
    exact ⟨_, List.mem_singleton_self _, raw, hraw, rfl⟩
  all_goals simp [benchReadings]

/-- A packet of one byte from the bench sender. -/
def benchPacket (packetId : ℕ) : FragmentPacketInput :=
  { packet := [9], sessionId := toSessionId (benchReadings .a).nonce, sequenceStart := 50, packetId,
    sender := senderFlag .a, payloadBytes := 1 }

set_option maxRecDepth 8000 in
/-- A packet gets through on the bench. -/
theorem getsThrough_bench : ∃ events arrivals,
    OffersPacket (benchOptions .b) (runSession (benchOptions .b) events) (benchPacket 1) arrivals ∧
      GetsThrough (benchOptions .b) (runSession (benchOptions .b) events) (benchPacket 1)
        arrivals := by
  obtain ⟨events, hevents⟩ := (linkState_run benchLink benchEstablish .b).session
  obtain ⟨raw, hraw⟩ : ∃ raw, encodeFas1 (fragmentAt (benchPacket 1) 0) = .ok raw := ⟨_, rfl⟩
  have hoffers := bench_offersPacket benchEstablish hraw (by decide +kernel)
    (by decide) rfl
  have hempty : (runLink benchLink benchEstablish).session.b.delivery.inbound = none := by
    decide +kernel
  have hsession : (runLink benchLink benchEstablish).session.b =
    runSession (benchOptions .b) events := hevents
  rw [hsession] at hoffers hempty
  refine ⟨events, _, hoffers, ?_⟩
  refine (getsThrough_iff ⟨benchOptions .b, benchOptions_admitted .b⟩ events _ _ hoffers).mpr ?_
  intro inbound hinbound
  rw [hempty] at hinbound
  cases hinbound

/-- The first fragment of a packet of two arrives, the second does not. -/
def benchAbandoned : List (Readings × LinkEvent) :=
  benchEstablish ++ [benchAct .a (.enqueuePacket [7, 8] .ordinary), benchDeliver .b, benchLose .b,
    benchLose .b]

set_option maxRecDepth 8000 in
/-- A packet does not get through to a slot that an abandoned one still holds. -/
theorem not_getsThrough_abandoned : ¬∀ (options : AdmittedOptions)
    (events : List (Readings × Event)) (input : FragmentPacketInput)
    (arrivals : List (Readings × Event)),
    OffersPacket options.toAcousticSessionOptions
      (runSession options.toAcousticSessionOptions events) input arrivals →
    GetsThrough options.toAcousticSessionOptions
      (runSession options.toAcousticSessionOptions events) input arrivals := by
  intro h
  obtain ⟨events, hevents⟩ := (linkState_run benchLink benchAbandoned .b).session
  obtain ⟨raw, hraw⟩ : ∃ raw, encodeFas1 (fragmentAt (benchPacket 2) 0) = .ok raw := ⟨_, rfl⟩
  have hoffers := bench_offersPacket benchAbandoned hraw (by decide +kernel)
    (by decide) rfl
  have hsession : (runLink benchLink benchAbandoned).session.b =
    runSession (benchOptions .b) events := hevents
  have hthrough := h ⟨benchOptions .b, benchOptions_admitted .b⟩ events (benchPacket 2) _
    (hsession ▸ hoffers)
  have hbrings : Brings (benchPacket 2) 0 (benchReadings .b, .receive raw) := ⟨raw, hraw, rfl⟩
  have hdropped : (deliverUnit (benchOptions .b) (benchReadings .b) (fragmentAt (benchPacket 2) 0)
      (runLink benchLink benchAbandoned).session.b).io.packets =
      (runLink benchLink benchAbandoned).session.b.io.packets := by decide +kernel
  rw [← hsession, GetsThrough, run_cons, run_nil, step_brings hbrings, hdropped] at hthrough
  simpa using congrArg List.length hthrough

end Fipwave.PacketAssembly
