import Fipwave.NegotiationMoves

/-!
# Every step of a session is a sequence of delivery moves

The methods that drive turns, deliver packets and recover, and from them the
refinement of whole steps: calls, timers, settled promises and received units.
-/

namespace Fipwave.DeliveryRefinement

open ByteWords ScriptIntegers ThrowingMethod Relation TransitionRun AcousticProtocol
  SettingsCommitment PacketFragments AcousticHandshake AcousticState AcousticMethods
  AcousticNegotiation AcousticDelivery AcousticSession DeliveryMachine NegotiationMoves

variable {options : AcousticSessionOptions} {x : Context} {c : Core} {s : AcousticSession}

/-- Degrading is one move. -/
theorem degrade_moves (hs : Moves x c (core s)) (reason : String) :
    Moves x c (core (degrade options reason s)) := by
  unfold degrade
  split
  · exact hs
  · exact hs.tail (Move.degrade (core s) _ rfl)

/-- So is a missed heartbeat. -/
theorem markHeartbeatMissed_moves (hs : Moves x c (core s)) :
    Moves x c (core (markHeartbeatMissed options s)) := by
  unfold markHeartbeatMissed
  split
  · exact hs
  · exact hs.tail (Move.degrade (core s) _ rfl)

/-- Expiry drops queued packets, the active packet, the assembly and delivered
identifiers. -/
theorem expireWork_moves (hs : Moves x c (core s)) {now : ℕ} (hnow : x.now = now) :
    Moves x c (core (expireWork options now s)) := by
  subst hnow
  have hqueues : Moves x c (core (expireQueues x.now s)) :=
    hs.tail (Move.expireQueues (core s))
  have hactive : Moves x c (core (expireActive options x.now (expireQueues x.now s))) := by
    unfold expireActive
    split
    · exact hqueues
    · next active hget =>
      split
      · next hexpired =>
        exact degrade_moves (hqueues.tail (Move.dropActive _ active hget (.inl hexpired))) _
      · exact hqueues
  unfold expireWork expireInbound
  generalize expireActive options x.now (expireQueues x.now s) = t at hactive ⊢
  dsimp only
  have hdelivered := hactive.tail (Move.expireDelivered (core t))
  split
  · exact hdelivered
  · next inbound hget =>
    split
    · next hexpired => exact hdelivered.tail (Move.expireInbound _ inbound hget hexpired)
    · exact hdelivered

/-- What expiry leaves alone, and what it leaves in the queues. -/
structure ExpiryFrame (now : ℕ) (s t : AcousticSession) : Prop where
  /-- The transmission counter. -/
  sequence : t.sequence = s.sequence
  /-- The packet counter. -/
  packetId : t.delivery.packetId = s.delivery.packetId
  /-- Packets that have not expired. -/
  queues : t.delivery.queues =
    ⟨retained now s.delivery.queues.control, retained now s.delivery.queues.heartbeat,
      retained now s.delivery.queues.ordinary⟩

/-- Expiring old work only removes packets and their timers. -/
theorem expireWork_frame (options : AcousticSessionOptions) (now : ℕ) (s : AcousticSession) :
    ExpiryFrame now s (expireWork options now s) := by
  have hactive : ExpiryFrame now s (expireActive options now (expireQueues now s)) := by
    unfold expireActive degrade
    split
    · exact ⟨rfl, rfl, rfl⟩
    · split
      · split <;> exact ⟨rfl, rfl, rfl⟩
      · exact ⟨rfl, rfl, rfl⟩
  unfold expireWork expireInbound
  dsimp only
  split
  · exact ⟨hactive.sequence, hactive.packetId, hactive.queues⟩
  · split <;> exact ⟨hactive.sequence, hactive.packetId, hactive.queues⟩

/-- Nothing is taken only from empty queues. -/
theorem dequeue_none {queues : Queues} (h : (dequeue queues).1 = none) :
    queues = ⟨[], [], []⟩ := by
  obtain ⟨control, heartbeat, ordinary⟩ := queues
  cases control with
  | cons item control => simp [dequeue] at h
  | nil =>
    cases heartbeat with
    | cons item heartbeat => simp [dequeue] at h
    | nil =>
      cases ordinary with
      | cons item ordinary => simp [dequeue] at h
      | nil => rfl

/-- Making a packet active is one move or none. -/
theorem activate_moves (hs : Moves x c (core s)) : Moves x c (core (activate s)) := by
  unfold activate
  split
  · exact hs
  · next h => exact hs.tail (Move.activate (core s) h)

/-- Transmitting a list of units that returns. -/
theorem transmitAll_ok {units : List Fas1Unit} {t : AcousticSession}
    (h : units.foldlM (fun s unit => transmit unit s) s = .ok t) :
    (∀ unit ∈ units, unit.WellFormed) ∧ t = { s with io.sent := s.io.sent ++ units } := by
  induction units generalizing s with
  | nil =>
    rw [List.append_nil]
    exact ⟨by simp, (Except.ok.inj h).symm⟩
  | cons unit units ih =>
    rw [List.foldlM_cons] at h
    cases hu : transmit unit s with
    | error f => simp [hu] at h
    | ok u =>
      rw [hu, ok_bind] at h
      obtain ⟨hwf, rfl⟩ := transmit_ok hu
      obtain ⟨hrest, rfl⟩ := ih h
      exact ⟨List.forall_mem_cons.mpr ⟨hwf, hrest⟩, by simp⟩

/-- Transmitting a list of units that throws transmits a first part of it. -/
theorem transmitAll_error {units : List Fas1Unit} {f : Fault AcousticSession}
    (h : units.foldlM (fun s unit => transmit unit s) s = .error f) :
    ∃ count ≤ units.length, (∀ unit ∈ units.take count, unit.WellFormed) ∧
      f.state = { s with io.sent := s.io.sent ++ units.take count } := by
  induction units generalizing s with
  | nil => simp [pure, Except.pure] at h
  | cons unit units ih =>
    rw [List.foldlM_cons] at h
    cases hu : transmit unit s with
    | error g =>
      rw [hu, error_bind] at h
      refine ⟨0, Nat.zero_le _, by simp, ?_⟩
      rw [← Except.error.inj h, (transmit_error hu).2]
      simp
    | ok u =>
      rw [hu, ok_bind] at h
      obtain ⟨hwf, rfl⟩ := transmit_ok hu
      obtain ⟨count, hcount, hrest, hf⟩ := ih h
      refine ⟨count + 1, by simpa using hcount, ?_, ?_⟩
      · rw [List.take_succ_cons]
        exact List.forall_mem_cons.mpr ⟨hwf, hrest⟩
      · rw [hf]
        simp

/-- The ACK timeout is armed or not. -/
theorem armAckTimeout_moves (hs : Moves x c (core s)) (generation sessionId : ℕ)
    (fragments : List Fas1Unit) (attempt : ℕ) :
    Moves x c (core (armAckTimeout options generation sessionId fragments attempt s)) := by
  unfold armAckTimeout
  split
  · exact hs
  · split
    · exact hs
    · exact hs.tail (Move.armTimeout (core s) _ (.inl ⟨_, _, rfl⟩))

/-- A burst is one move, and its timeout another. A unit that cannot be encoded ends the burst
early, so the move counts what was sent. -/
theorem sendBurst_moves (hs : Moves x c (core s)) (hrole : x.role = options.role)
    (sessionId : ℕ) (pending : PendingPacket) (hstate : s.state = .ready)
    (howner : s.delivery.turnOwner = some options.role)
    (hactive : s.delivery.active = some pending) (hawaiting : s.delivery.awaitingAck = false)
    (hmissing : missingFragments pending ≠ []) :
    Moves x c (core (left (sendBurst options sessionId pending (missingFragments pending) s))) := by
  have hburst : ∀ turnEnd : Fas1Unit, turnEnd.type = .turnEnd → ∀ count,
      (∀ unit ∈ (missingFragments pending ++ [turnEnd]).take count, unit.WellFormed) → Moves x c
      { core s with
        delivery.active := some (burstOf pending)
        delivery.awaitingAck := true
        sent := s.io.sent ++ (missingFragments pending ++ [turnEnd]).take count } := by
    intro turnEnd htype count hwf
    exact hs.tail (Move.burst (core s) pending turnEnd count hstate (by rw [hrole]; exact howner)
      hactive hawaiting hmissing htype hwf)
  unfold sendBurst
  dsimp only
  refine left_bind (P := fun t => Moves x c (core t)) ?_ ?_
  · intro f hf
    obtain ⟨count, hcount, hwf, hstate'⟩ := transmitAll_error hf
    rw [hstate']
    have hb := hburst (controlUnit options .turnEnd sessionId [] 0) rfl count
    rw [List.take_append_of_le_length hcount] at hb
    exact hb hwf
  · intro t ht
    obtain ⟨hdata, rfl⟩ := transmitAll_ok ht
    refine left_bind (P := fun t => Moves x c (core t)) ?_ ?_
    · intro f hf
      rw [send_error options hf]
      have hb := hburst (controlUnit options .turnEnd sessionId [] 0) rfl
        (missingFragments pending).length
      rw [List.take_left] at hb
      exact hb hdata
    · intro u hu
      obtain ⟨id, -, hend, rfl⟩ := send_ok options hu
      have hwf : ∀ unit ∈ missingFragments pending ++ [controlUnit options .turnEnd id [] s.sequence],
          unit.WellFormed := by
        intro unit hunit
        rcases List.mem_append.mp hunit with hunit | hunit
        · exact hdata unit hunit
        · rw [List.mem_singleton.mp hunit]
          exact hend
      have hb := hburst (controlUnit options .turnEnd id [] s.sequence) rfl
        ((missingFragments pending).length + 1)
      rw [List.take_of_length_le (by simp), ← List.append_assoc] at hb
      have hmoves := hb (by simpa using hwf)
      split
      · exact hmoves
      · rw [left_pure]
        refine armAckTimeout_moves ?_ _ _ _ _
        exact hmoves

/-- Closing a turn without a packet, after the heartbeats already sent. -/
theorem closeTurn_moves (beats : List Fas1Unit) {t : AcousticSession} (hs : Moves x c (core s))
    (hrole : x.role = options.role) (sessionId : ℕ)
    (ht : core t = { core s with sent := s.io.sent ++ beats })
    (hbeats : ∀ unit ∈ beats, unit.type = .heartbeat) (hwf : ∀ unit ∈ beats, unit.WellFormed)
    (hawaiting : s.delivery.awaitingAck = false)
    (hthrow : ¬(controlUnit options .turnEnd sessionId [] t.sequence).WellFormed →
      Moves x c (core t)) :
    Moves x c (core (left (closeTurn options sessionId t))) := by
  unfold closeTurn
  refine left_bind (P := fun u => Moves x c (core u)) ?_ ?_
  · intro f hf
    rw [send_error options hf]
    exact hthrow (send_refused options hf)
  · intro u hu
    obtain ⟨id, -, hend, rfl⟩ := send_ok options hu
    have hmove := hs.tail (Move.closeTurn (core s) beats
      (controlUnit options .turnEnd id [] t.sequence) hbeats rfl (by
        intro unit hunit
        rcases List.mem_append.mp hunit with hunit | hunit
        · exact hwf unit hunit
        · rw [List.mem_singleton.mp hunit]
          exact hend) hawaiting)
    have hsent : t.io.sent = s.io.sent ++ beats := congrArg Core.sent ht
    have hdelivery : t.delivery = s.delivery := congrArg Core.delivery ht
    have hgoal : core (yieldToken options
        { t with
          sequence := t.sequence + 1
          io.sent := t.io.sent ++ [controlUnit options .turnEnd id [] t.sequence] }) =
        { core t with
          sent := t.io.sent ++ [controlUnit options .turnEnd id [] t.sequence]
          delivery.turnOwner := some (complement options.role) } := rfl
    rw [left_pure, hgoal, ht, hsent, ← hrole]
    exact hmove

/-- A turn of the owner. The encoder can refuse to close a heartbeat turn only
at the last value of the transmission counter, and only with empty queues. -/
theorem driveTurn_moves (hs : Moves x c (core s)) (readings : Readings)
    (hrole : x.role = options.role) (hnow : x.now = readings.now)
    (hexhausted : s.sequence = uint32Max →
      (expireWork options readings.now s).delivery.queues = ⟨[], [], []⟩ → x.exhausted) :
    Moves x c (core (left (driveTurn options readings s))) := by
  have hexpire : Moves x c (core (expireWork options readings.now s)) := expireWork_moves hs hnow
  have hsequence := (expireWork_frame options readings.now s).sequence
  unfold driveTurn
  generalize expireWork options readings.now s = t at hexpire hsequence hexhausted ⊢
  dsimp only
  split
  · exact hexpire
  · next sessionId hsession =>
    split
    · exact hexpire
    · next h =>
      simp only [not_or, not_not, Bool.not_eq_true] at h
      obtain ⟨hstate, howner, hawaiting⟩ := h
      have happlied : Moves x c (core (applyOutboundCandidate options t)) := by
        rw [applyOutboundCandidate_core]
        exact hexpire
      have hactivated := activate_moves happlied
      have hkeep : (activate (applyOutboundCandidate options t)).state = t.state ∧
          (activate (applyOutboundCandidate options t)).sequence = t.sequence ∧
          (activate (applyOutboundCandidate options t)).delivery.turnOwner = t.delivery.turnOwner ∧
          (activate (applyOutboundCandidate options t)).delivery.awaitingAck =
            t.delivery.awaitingAck := by
        unfold activate applyOutboundCandidate
        split <;> split <;> exact ⟨rfl, rfl, rfl, rfl⟩
      have hempty : (activate (applyOutboundCandidate options t)).delivery.active = none →
          t.delivery.queues = ⟨[], [], []⟩ := by
        intro hnone
        unfold activate at hnone
        have hqueues : (applyOutboundCandidate options t).delivery = t.delivery := by
          unfold applyOutboundCandidate
          split <;> rfl
        split at hnone
        · next active hsome => simp [hsome] at hnone
        · rw [hqueues] at hnone
          exact dequeue_none hnone
      generalize activate (applyOutboundCandidate options t) = u at hactivated hkeep hempty ⊢
      obtain ⟨hustate, husequence, huowner, huawaiting⟩ := hkeep
      split
      · next hnone =>
        split
        · have hdue := hactivated.tail (Move.heartbeatDue (core u) false)
          refine left_bind (P := fun v => Moves x c (core v)) ?_ ?_
          · intro f hf
            rw [send_error options hf]
            exact hdue
          · intro v hv
            obtain ⟨id, hid, hwf, rfl⟩ := send_ok options hv
            obtain rfl := Option.some.inj hid
            refine closeTurn_moves (s := { u with delivery.heartbeatDue := false })
              [controlUnit options .heartbeat sessionId [] u.sequence]
              hdue hrole sessionId rfl (by simp [controlUnit]) (by simpa using hwf)
              (huawaiting.trans hawaiting) ?_
            intro hrefused
            have hbeat := hwf
            rw [controlUnit_wellFormed_iff options (by simp)] at hwf hrefused
            have hlast : u.sequence = uint32Max := by
              simp only at hwf hrefused
              omega
            refine hdue.tail (Move.unclosedHeartbeat _ _ rfl hbeat (hexhausted ?_ (hempty hnone)))
            rw [← hsequence, ← husequence, hlast]
        · refine closeTurn_moves [] hactivated hrole sessionId ?_ (by simp) (by simp)
            (huawaiting.trans hawaiting) (fun _ => hactivated)
          simp [core]
      · next pending hget =>
        split
        · next hattempts =>
          have hdrop := hactivated.tail (Move.dropActive (core u) pending hget (.inr hattempts))
          have hfalse : u.delivery.awaitingAck = false := huawaiting.trans hawaiting
          refine degrade_moves ?_ _
          simpa only [core, hfalse] using hdrop
        · split
          · next hmissing =>
            have hskip := hactivated.tail (Move.skipTurn (core u) pending
              ⟨u.link.epoch, u.link.sessionId, .driveTurn, guardMs options u⟩ hget
              (huawaiting.trans hawaiting) hmissing rfl)
            rw [hrole] at hskip
            exact hskip
          · next hmissing =>
            exact sendBurst_moves hactivated hrole sessionId pending (hustate.trans hstate)
              (huowner.trans howner) hget (huawaiting.trans hawaiting) hmissing

/-- The ACK of a burst is given up and the turn driven on. -/
theorem onAckTimeout_moves (hs : Moves x c (core s)) (readings : Readings)
    (hrole : x.role = options.role) (hnow : x.now = readings.now)
    (hexhausted : s.sequence = uint32Max → x.exhausted) (packetId attempt : ℕ) :
    Moves x c (core (left (onAckTimeout options readings packetId attempt s))) := by
  unfold onAckTimeout
  split
  · exact hs
  · split
    · exact hs
    · exact driveTurn_moves (hs.tail (Move.ackTimeout (core s))) readings hrole hnow
        (fun h _ => hexhausted h)

/-- Returning to rest is a reset, and beginning again moves on from it. -/
theorem restart_moves (hs : Moves x c (core s)) (readings : Readings)
    (hrole : x.role = options.role) (epoch : ℕ) (sessionId : Option ℕ) :
    Moves x c (core (left (restart options readings epoch sessionId s))) := by
  unfold restart
  split
  · exact hs
  · split
    · exact start_moves (reset_moves hs hrole epoch) readings hrole
    · exact reset_moves hs hrole epoch

/-- Giving the session up makes only the machine's moves. -/
theorem restartSession_moves (hs : Moves x c (core s)) (readings : Readings)
    (hrole : x.role = options.role) :
    Moves x c (core (left (restartSession options readings s))) := by
  unfold restartSession
  split
  · refine moves_bind (send_moves hs (by simp [Negotiating])) ?_
    intro t _ ht
    split
    · exact ht
    · exact restart_moves ht readings hrole _ _
  · exact restart_moves hs readings hrole _ _

/-- The recovery timeout is armed or not. -/
theorem armRecoveryTimeout_moves (hs : Moves x c (core s)) (generation sessionId : ℕ) :
    Moves x c (core (armRecoveryTimeout options generation sessionId s)) := by
  unfold armRecoveryTimeout
  split
  · exact hs
  · exact hs.tail (Move.armTimeout (core s) _ (.inr rfl))

/-- Beginning a recovery makes only the machine's moves. -/
theorem beginRecovery_moves (hs : Moves x c (core s)) (readings : Readings)
    (hrole : x.role = options.role) :
    Moves x c (core (left (beginRecovery options readings s))) := by
  unfold beginRecovery
  split
  · exact hs
  · split
    · exact hs
    · next hdegraded =>
      split
      · exact restartSession_moves hs readings hrole
      · have hrecover := hs.tail (Move.recover (core s) (not_not.mp hdegraded))
        dsimp only
        split
        · next ha =>
          refine moves_bind (send_moves ?_ (by simp [Negotiating, hrole, ha])) ?_
          · exact hrecover
          · intro t _ ht
            split
            · exact ht
            · exact armRecoveryTimeout_moves ht _ _
        · rw [left_pure]
          refine armRecoveryTimeout_moves ?_ _ _
          exact hrecover

/-- A RESET of the current session makes the moves of a reset; any other is ignored. -/
theorem onReset_moves (hs : Moves x c (core s)) (readings : Readings)
    (hrole : x.role = options.role) (sessionId : ℕ) :
    Moves x c (core (left (onReset options readings sessionId s))) := by
  unfold onReset
  split
  · exact hs
  · split
    · exact start_moves (reset_moves hs hrole _) readings hrole
    · exact reset_moves hs hrole _

theorem wasDelivered_iff (packetId : ℕ) (s : AcousticSession) :
    wasDelivered packetId s = true ↔ ∃ entry ∈ s.delivery.delivered, entry.1 = packetId := by
  simp [wasDelivered]

/-- Storing a fragment leaves the assembly with that fragment. -/
theorem storeFragment_fst (now : ℕ) (unit : Fas1Unit) (s : AcousticSession) :
    (storeFragment now unit s).1 =
      withFragment (assemblyFor now unit s.delivery.inbound) unit := by
  unfold storeFragment withFragment
  dsimp only
  split <;> rfl

/-- The core after a fragment is stored. -/
theorem storeFragment_core (now : ℕ) (unit : Fas1Unit) (s : AcousticSession) :
    core (storeFragment now unit s).2 =
      { core s with
        delivery.inbound := some (withFragment (assemblyFor now unit s.delivery.inbound) unit)
        delivery.lastAck := some ⟨unit.packetId,
          bitmapOf (withFragment (assemblyFor now unit s.delivery.inbound) unit).fragments⟩ } := by
  unfold storeFragment withFragment
  dsimp only
  split <;> rfl

/-- The inbound payload size of the core. -/
theorem inboundPayloadBytes_ok {payloadBytes : ℕ}
    (h : inboundPayloadBytes options s = .ok payloadBytes) :
    ∃ settings, s.commitment.settings = some settings ∧
      payloadBytes = inboundPayload options.role settings := by
  unfold inboundPayloadBytes at h
  split at h
  · cases h
  · next settings hsettings =>
    refine ⟨settings, hsettings, ?_⟩
    rw [← Except.ok.inj h]
    unfold inboundOf inboundPayload
    cases options.role <;> rfl

/-- Storing a fragment leaves the assembly incomplete, or delivers, drops or keeps it, by the result
of putting the packet together. -/
theorem storeFragment_moves (hs : Moves x c (core s)) {unit : Fas1Unit} {payloadBytes : ℕ}
    (h : Assembles x (core s) unit payloadBytes) :
    Moves x c (core (completeAssembly x.now unit.sessionId payloadBytes unit
      (storeFragment x.now unit s).1 (storeFragment x.now unit s).2)) := by
  have hcore := storeFragment_core x.now unit s
  have hdelivered : wasDelivered unit.packetId (storeFragment x.now unit s).2 = false := by
    rw [← Bool.not_eq_true, wasDelivered_iff]
    rintro ⟨entry, hmem, heq⟩
    have hmem' : entry ∈ (core (storeFragment x.now unit s).2).delivery.delivered := hmem
    rw [hcore] at hmem'
    exact h.fresh entry hmem' heq
  rw [storeFragment_fst]
  unfold completeAssembly
  split
  · next hincomplete =>
    rw [hcore]
    exact hs.tail (Move.storeData (core s) unit payloadBytes _ h rfl hincomplete)
  · next hcomplete =>
    rw [not_not] at hcomplete
    split
    · next message hresult =>
      have hmove := Move.failAssembly (core s) unit payloadBytes _ message h rfl hcomplete hresult
      refine hs.tail ?_
      convert hmove using 1
      exact congrArg (fun d : Core => { d with delivery.inbound := none }) hcore
    · next packet hresult =>
      split
      · next hold =>
        rw [hdelivered] at hold
        rw [hcore]
        exact hs.tail (Move.holdAssembly (core s) unit payloadBytes _ packet h rfl hcomplete hresult
          (by simpa using hold))
      · next hnew =>
        simp only [not_or, not_not] at hnew
        have hmove := Move.deliver (core s) unit payloadBytes _ packet h rfl hcomplete hresult hnew.1
        refine hs.tail ?_
        convert hmove using 1
        exact congrArg (fun d : Core => { d with
          delivery.inbound := none
          delivery.delivered := remember unit.packetId (x.now + maxPacketAgeMs) d.delivery.delivered
          packets := d.packets ++
            [DeliveredPacket.mk d.generation unit.sessionId unit.packetId packet] }) hcore

/-- Receiving a fragment first expires old work. What follows is a repeated ACK for a packet
delivered before, or the fragment is stored. -/
theorem onData_moves (hs : Moves x c (core s)) (readings : Readings)
    (hrole : x.role = options.role) (hnow : x.now = readings.now) {unit : Fas1Unit}
    (hunit : x.received = some unit) (htype : unit.type = .data) :
    Moves x c (core (left (onData options readings unit s))) := by
  have hexpire : Moves x c (core (expireWork options readings.now s)) := expireWork_moves hs hnow
  unfold onData
  generalize expireWork options readings.now s = t at hexpire ⊢
  dsimp only
  split
  · exact hexpire
  · next h =>
    simp only [not_or, not_not] at h
    obtain ⟨hstate, hsession, howner⟩ := h
    rw [← hrole] at howner
    split
    · next hdelivered =>
      exact hexpire.tail (Move.repeatedData (core t) unit hunit htype hstate hsession howner
        ((wasDelivered_iff _ t).mp hdelivered))
    · next hdelivered =>
      have hfresh : ∀ entry ∈ t.delivery.delivered, entry.1 ≠ unit.packetId := by
        intro entry hmem heq
        exact hdelivered ((wasDelivered_iff _ t).mpr ⟨entry, hmem, heq⟩)
      split
      · exact hexpire
      · next hconflict =>
        have hagrees : ∀ existing, t.delivery.inbound = some existing →
            conflicts unit existing = false := by
          intro existing he
          simpa [he] using hconflict
        cases hp : inboundPayloadBytes options t with
        | error f =>
          unfold inboundPayloadBytes at hp
          split at hp
          · rw [← Except.error.inj hp]
            exact hexpire
          · simp at hp
        | ok payloadBytes =>
          rw [ok_bind]
          split
          · exact hexpire
          · next hgeometry =>
            simp only [not_or, not_not] at hgeometry
            obtain ⟨settings, hsettings, hpayload⟩ := inboundPayloadBytes_ok hp
            rw [← hrole] at hpayload
            rw [left_pure, ← hnow]
            exact storeFragment_moves hexpire ⟨hunit, htype, hstate, hsession, howner, hfresh,
              hagrees, ⟨settings, hsettings, hpayload⟩, hgeometry.1,
              by rw [hgeometry.2, hgeometry.1]⟩

/-- Receiving a TURN_END answers with the pending ACK, or takes the turn where there is none. -/
theorem onTurnEnd_moves (hs : Moves x c (core s)) (hstart : x.start = core s)
    (hrole : x.role = options.role) {unit : Fas1Unit} (hunit : x.received = some unit)
    (htype : unit.type = .turnEnd) :
    Moves x c (core (left (onTurnEnd options unit.sessionId s))) := by
  unfold onTurnEnd
  split
  · exact hs
  · next h =>
    simp only [not_or, not_not] at h
    obtain ⟨hstate, hsession, howner⟩ := h
    split
    · next ack hack =>
      have hreply : ∀ ackUnit : Fas1Unit, ackUnit.type = .ack →
          ackUnit.sessionId = unit.sessionId → ackUnit.packetId = ack.packetId →
          ackUnit.sequence = ack.bitmap → ∀ count,
          (∀ unit ∈ [ackUnit].take count, unit.WellFormed) → Moves x c
            { core s with
              delivery.lastAck := none
              delivery.turnOwner := some (complement options.role)
              sent := s.io.sent ++ [ackUnit].take count } := by
        intro ackUnit h1 h2 h3 h4 count hwf
        rw [← hrole]
        exact hs.tail (Move.replyAck (core s) unit ackUnit ack count hunit htype hstate hsession
          (by rw [hrole]; exact howner) hack h1 h2 h3 h4 hwf)
      unfold sendAck
      split
      · next hnone =>
        change s.link.sessionId = none at hnone
        simp [hnone] at hsession
      · next sessionId hsome =>
        change s.link.sessionId = some sessionId at hsome
        obtain rfl : sessionId = unit.sessionId := Option.some.inj (hsome.symm.trans hsession)
        have hr := hreply (ackUnit options unit.sessionId ack.packetId ack.bitmap) rfl rfl rfl rfl
        cases ht : transmit (ackUnit options unit.sessionId ack.packetId ack.bitmap)
            (yieldToken options { s with delivery.lastAck := none }) with
        | error f =>
          rw [left_error, (transmit_error ht).2]
          have h0 := hr 0 (by simp)
          rw [List.take_zero, List.append_nil] at h0
          exact h0
        | ok t =>
          obtain ⟨hwf, rfl⟩ := transmit_ok ht
          have h1 := hr 1 (by simpa using hwf)
          rw [List.take_of_length_le (by simp)] at h1
          exact h1
    · next hack =>
      have htake := Move.takeToken unit
        ⟨s.link.epoch, s.link.sessionId, .driveTurn, guardMs options s⟩ hunit htype
        (by rw [hstart]; exact hstate) (by rw [hstart]; exact hsession)
        (by rw [hstart, hrole]; exact howner) (by rw [hstart]; exact hack) rfl
      rw [hrole, hstart] at htake
      exact hs.tail htake

/-- Receiving an ACK makes only the machine's moves. -/
theorem onAck_moves (hs : Moves x c (core s)) (hrole : x.role = options.role)
    {unit : Fas1Unit} (hunit : x.received = some unit) (htype : unit.type = .ack) :
    Moves x c (core (left (onAck options unit.sessionId unit.packetId unit.sequence s))) := by
  unfold onAck
  split
  · exact hs
  · next pending hactive =>
    dsimp only
    split
    · exact hs
    · next h =>
      simp only [not_or, not_not, Bool.not_eq_true', Bool.not_eq_false, not_lt, gt_iff_lt] at h
      obtain ⟨hstate, hsession, hawaiting, hpacket, hlegal⟩ := h
      split
      · exact hs
      · split
        · next hfull =>
          have hmove := hs.tail (Move.fullAck (core s) unit pending unit.sessionId hunit htype
            hstate hsession rfl hactive hawaiting hpacket hlegal hfull)
          refine closeTurn_moves (s := { s with
            delivery.active := none
            delivery.awaitingAck := false
            timers.deliveryTimer := none
            io.acknowledged := s.io.acknowledged ++
              [acceptedOf s.link.generation unit.sessionId pending] }) [] hmove hrole unit.sessionId
            ?_ (by simp) (by simp) rfl (fun _ => hmove)
          simp [core, clearDeliveryTimer, acceptedOf]
        · next hmore =>
          have hmove := hs.tail (Move.partialAck (core s) unit pending
            ⟨s.link.epoch, s.link.sessionId, .driveTurn, guardMs options s⟩ hunit htype hstate
            hsession hactive hawaiting hpacket hlegal hmore rfl)
          rw [hrole] at hmove
          exact hmove

/-- Scheduling a heartbeat touches timers only. -/
theorem scheduleHeartbeat_core (options : AcousticSessionOptions) (captured : BoundTimer)
    (s : AcousticSession) :
    core (scheduleHeartbeat options captured s) = core s := by
  unfold scheduleHeartbeat
  split <;> rfl

/-- Arming the heartbeats touches timers only. -/
theorem armHeartbeatTimers_core (options : AcousticSessionOptions) (s : AcousticSession) :
    core (armHeartbeatTimers options s) = core s := by
  unfold armHeartbeatTimers
  split
  · rfl
  · exact scheduleHeartbeat_core options (boundTimer 0 s) s

/-- The core a heartbeat makes ready, before a reply. -/
theorem markReady_core (options : AcousticSessionOptions) (readings : Readings) (s : AcousticSession) :
    core (markReady options readings s) =
      { core s with
        state := .ready
        deliveryTimer := none
        delivery.recoveryAttempts := 0 } := by
  unfold markReady
  generalize ht : (if options.role = .b then clearCommitRetry s else s) = t
  have hcommit : core t = core s := by
    rw [← ht]
    split <;> rfl
  have hcore := armHeartbeatTimers_core options
    { clearDeliveryTimer t with
      state := .ready
      lastHeartbeatAtMs := some readings.now }
  calc core { armHeartbeatTimers options
        { clearDeliveryTimer t with
          state := .ready
          lastHeartbeatAtMs := some readings.now } with
        delivery.recoveryAttempts := 0 }
      = { core (armHeartbeatTimers options
          { clearDeliveryTimer t with
            state := .ready
            lastHeartbeatAtMs := some readings.now }) with
          delivery.recoveryAttempts := 0 } := rfl
    _ = { core t with
          state := .ready
          deliveryTimer := none
          delivery.recoveryAttempts := 0 } := by rw [hcore]; rfl
    _ = _ := by rw [hcommit]

/-- Receiving a HEARTBEAT makes a waiting or recovering session ready, with the token at the first
role. The second role answers it. -/
theorem onHeartbeat_moves (hs : Moves x c (core s)) (hstart : x.start = core s)
    (readings : Readings) (hrole : x.role = options.role) {unit : Fas1Unit} (hunit : x.received = some unit)
    (htype : unit.type = .heartbeat) :
    Moves x c (core (left (onHeartbeat options readings unit.sessionId s))) := by
  have hready := markReady_core options readings s
  unfold onHeartbeat
  split
  · exact hs
  · next h =>
    simp only [not_or, not_not, not_and_or] at h
    obtain ⟨hsession, hstates⟩ := h
    dsimp only
    generalize markReady options readings s = u at hready ⊢
    have hresync : (s.state = .awaitingHeartbeat ∨ s.state = .degraded ∨ s.state = .recovering) →
        ∀ (units : List Fas1Unit) (timer : Option DeliveryTimer),
          (∀ unit ∈ units, unit.type = .heartbeat ∧ x.role = .b) →
          (∀ unit ∈ units, unit.WellFormed) → Moves x c
            { core s with
              state := .ready
              delivery.recoveryAttempts := 0
              delivery.turnOwner := some .a
              deliveryTimer := timer
              sent := s.io.sent ++ units } :=
      fun hstate units timer hunits hwf => by
        have hmove := Move.resync (x := x) unit units timer hunit htype
          (by rw [hstart]; exact hsession) (by rw [hstart]; exact hstate) hunits hwf
        rw [hstart] at hmove
        exact hs.tail hmove
    have htoken : core { u with delivery.turnOwner := some .a } =
        { core s with
          state := .ready
          delivery.recoveryAttempts := 0
          delivery.turnOwner := some .a
          deliveryTimer := none
          sent := s.io.sent ++ [] } := by
      calc core { u with delivery.turnOwner := some .a }
          = { core u with delivery.turnOwner := some .a } := rfl
        _ = _ := by rw [hready, List.append_nil]; rfl
    rcases hstates with hstate | hstate | hstate
    · by_cases hb : options.role = .b
      · simp only [hstate, hb, recoveringFrom, replyHeartbeat, reduceCtorEq, decide_true,
          decide_false, Bool.or_self, Bool.false_and, Bool.or_false, Bool.and_self, if_true,
          Bool.false_eq_true, if_false]
        refine left_bind (P := fun t => Moves x c (core t)) ?_ ?_
        · intro f hf
          rw [send_error options hf]
          have hstuck := hs.tail (Move.unansweredResync (core s) unit hunit (hrole.trans hb) hstate)
          change Moves x c (core u)
          rw [hready]
          exact hstuck
        · intro t ht
          obtain ⟨id, -, hwf, rfl⟩ := send_ok options ht
          have hmove := hresync (.inl hstate) [controlUnit options .heartbeat id [] u.sequence] none
            (by
              intro unit hmem
              rw [List.mem_singleton] at hmem
              exact ⟨by rw [hmem]; rfl, hrole.trans hb⟩) (by simpa using hwf)
          have hsent : u.io.sent = s.io.sent := congrArg Core.sent hready
          rw [← hsent] at hmove
          have heq : core { u with
              delivery.turnOwner := some .a
              io.sent := u.io.sent ++ [controlUnit options .heartbeat id [] u.sequence] } =
              { core { u with delivery.turnOwner := some .a } with
                sent := u.io.sent ++ [controlUnit options .heartbeat id [] u.sequence] } := rfl
          rw [htoken] at heq
          rw [left_pure]
          change Moves x c (core { u with
              delivery.turnOwner := some .a
              io.sent := u.io.sent ++ [controlUnit options .heartbeat id [] u.sequence] })
          rw [heq]
          exact hmove
      · simp only [hstate, hb, recoveringFrom, reduceCtorEq, decide_true, decide_false,
          Bool.or_self, Bool.or_false, Bool.and_false, Bool.false_eq_true, if_false, if_true,
          ok_bind, left_pure]
        rw [htoken]
        exact hresync (.inl hstate) [] none (by simp) (by simp)
    · simp only [hstate, recoveringFrom, reduceCtorEq, decide_false, Bool.or_self, Bool.false_and,
        Bool.false_eq_true, if_false, ok_bind, left_pure]
      have hmove := hs.tail (Move.confirm (core s) hstate)
      rw [hready, ← hstate]
      exact hmove
    · have hrecovering : recoveringFrom s.state = true := by
        rcases hstate with h | h <;> simp [recoveringFrom, h]
      have hawaiting : ¬s.state = .awaitingHeartbeat := by
        rcases hstate with h | h <;> simp [h]
      by_cases hb : options.role = .b
      · simp only [hrecovering, hawaiting, hb, replyHeartbeat, decide_true, decide_false,
          Bool.false_or, Bool.and_self, if_true, Bool.or_self, ok_bind, left_pure]
        have hmove := hresync (.inr hstate) [] (some ⟨u.link.epoch, u.link.sessionId,
          .recoveryReply unit.sessionId, guardMs options u⟩) (by simp) (by simp)
        change Moves x c { core { u with delivery.turnOwner := some .a } with
          deliveryTimer := some ⟨u.link.epoch, u.link.sessionId, .recoveryReply unit.sessionId,
            guardMs options u⟩ }
        rw [htoken]
        exact hmove
      · simp only [hrecovering, hawaiting, hb, decide_false, Bool.false_or, Bool.and_false,
          Bool.false_eq_true, if_false, if_true, Bool.or_true, ok_bind, left_pure]
        rw [htoken]
        exact hresync (.inr hstate) [] none (by simp) (by simp)

/-- Asking for a heartbeat makes the moves of the turn in which it is sent. -/
theorem heartbeat_moves (hs : Moves x c (core s)) (readings : Readings)
    (hrole : x.role = options.role) (hnow : x.now = readings.now)
    (hexhausted : s.sequence = uint32Max → x.exhausted) :
    Moves x c (core (left (heartbeat options readings s))) := by
  unfold heartbeat
  split
  · exact hs
  · exact driveTurn_moves (hs.tail (Move.heartbeatDue (core s) true)) readings hrole hnow
      (fun h _ => hexhausted h)

/-- A packet just queued outlives the expiry of the same instant. -/
theorem pushPacket_retained (now : ℕ) (queues : Queues) {pending : PendingPacket}
    (h : now ≤ pending.expiresAt) :
    (⟨retained now (pushPacket pending queues).control,
      retained now (pushPacket pending queues).heartbeat,
      retained now (pushPacket pending queues).ordinary⟩ : Queues) ≠ ⟨[], [], []⟩ := by
  intro heq
  unfold pushPacket at heq
  cases hclass : pending.trafficClass <;> simp [hclass, retained, h] at heq

/-- Queueing a packet draws an identifier, accepts the packet and drives the turn. -/
theorem queueNewPacket_moves (hs : Moves x c (core s)) (readings : Readings) {sessionId : ℕ}
    {packet : Bytes} {trafficClass : AcousticTrafficClass} (hrole : x.role = options.role)
    (hnow : x.now = readings.now) (hwrap : s.delivery.packetId = uint32Max → x.wrapping)
    (hstate : s.state = .ready) (hsession : s.link.sessionId = some sessionId)
    (hfresh : ∀ entry ∈ pendingOf s.delivery,
      ¬(entry.trafficClass = trafficClass ∧ entry.packet = packet))
    (hroom : (pendingOf s.delivery).length < maxQueuedPackets) :
    Moves x c (core (left (do
      let (_, t) ← queueNewPacket options readings sessionId packet trafficClass s
      return t))) := by
  have hdraw := hs.tail (Move.drawPacketId (core s) hwrap)
  unfold queueNewPacket
  cases hsettings : s.commitment.settings with
  | none =>
    simp only [outboundSettings, hsettings, throwIn, error_bind, left_error]
    exact hdraw
  | some settings =>
    simp only [outboundSettings, hsettings, ok_bind, bind_assoc]
    refine attempt_bind hdraw ?_
    intro fragments hfragments
    refine moves_bind (driveTurn_moves ?_ readings hrole hnow ?_) ?_
    · have haccept := hs.tail (Move.accept (core s)
        ⟨packet, sessionId, s.sequence, s.delivery.packetId, senderFlag options.role,
          (outboundOf options settings).payloadBytes⟩
        fragments trafficClass hstate hsession rfl hwrap hfragments hfresh hroom)
      rw [hnow] at haccept
      exact haccept
    · intro _ hempty
      rw [(expireWork_frame options readings.now _).queues] at hempty
      exact absurd hempty (pushPacket_retained _ _ (Nat.le_add_right _ _))
    · intro t _ ht
      exact ht

/-- Offering a packet expires old work, and queues it where it is accepted. -/
theorem enqueuePacket_moves (hs : Moves x c (core s)) (readings : Readings) (packet : Bytes)
    (trafficClass : AcousticTrafficClass) (hrole : x.role = options.role)
    (hnow : x.now = readings.now) (hwrap : s.delivery.packetId = uint32Max → x.wrapping) :
    Moves x c (core (left (do
      let (_, t) ← enqueuePacket options readings packet trafficClass s
      return t))) := by
  have hexpire : Moves x c (core (expireWork options readings.now s)) := expireWork_moves hs hnow
  rw [← (expireWork_frame options readings.now s).packetId] at hwrap
  unfold enqueuePacket
  generalize expireWork options readings.now s = t at hexpire hwrap ⊢
  dsimp only
  split
  · exact hexpire
  · next sessionId hsession =>
    split
    · exact hexpire
    · next hstate =>
      split
      · exact hexpire
      · split
        · exact hexpire
        · next hfind =>
          split
          · exact hexpire
          · next hroom =>
            refine queueNewPacket_moves hexpire readings hrole hnow hwrap (not_not.mp hstate)
              hsession ?_ ?_
            · intro entry hmem hsame
              have hnot := List.find?_eq_none.mp hfind entry hmem
              simp [hsame.1, hsame.2] at hnot
            · simp only [queueLength] at hroom
              simp only [pendingOf, List.length_append]
              omega

/-- Dispatching a received unit makes the moves of the handler of its type. -/
theorem handleUnit_moves (hs : Moves x c (core s)) (hstart : x.start = core s)
    (readings : Readings) (hrole : x.role = options.role) (hnow : x.now = readings.now)
    (hcandidates : x.candidates = options.candidates) {unit : Fas1Unit}
    (hunit : x.received = some unit) :
    Moves x c (core (left (handleUnit options readings unit s))) := by
  unfold handleUnit
  cases htype : unit.type with
  | hello => exact onHello_moves hs readings _ _ hrole
  | helloAck => exact onHelloAck_moves hs _ _
  | caps => exact onCaps_moves hs _ _
  | probe => exact onProbe_moves hs readings hcandidates _ _
  | report => exact onReport_moves hs hcandidates _ _
  | commit => exact onCommit_moves hs _ _ hrole
  | commitAck => exact onCommitAck_moves hs hstart _ _
  | heartbeat => exact onHeartbeat_moves hs hstart readings hrole hunit htype
  | data => exact onData_moves hs readings hrole hnow hunit htype
  | turnEnd => exact onTurnEnd_moves hs hstart hrole hunit htype
  | ack => exact onAck_moves hs hrole hunit htype
  | reset => exact onReset_moves hs readings hrole _

/-- A unit reaching a session makes the moves of its handler, or none where it is not for it. -/
theorem deliverUnit_moves (readings : Readings) (hstart : x.start = core s)
    (hrole : x.role = options.role) (hnow : x.now = readings.now)
    (hcandidates : x.candidates = options.candidates) {unit : Fas1Unit}
    (hunit : x.received = some unit) :
    Moves x (core s) (core (deliverUnit options readings unit s)) := by
  have hmoves : Moves x (core s) (core (left (handleUnit options readings unit s))) :=
    handleUnit_moves .refl hstart readings hrole hnow hcandidates hunit
  unfold deliverUnit receiveUnit
  split
  · split
    · exact .refl
    · split
      · next t ht =>
        rw [ht, left_ok] at hmoves
        unfold noteLiveness
        split
        · rw [armHeartbeatTimers_core]
          exact hmoves
        · exact hmoves
      · next f hf =>
        rw [hf, left_error] at hmoves
        exact hmoves
  · exact .refl

/-- The calibration deadline changes no core. -/
theorem fireTimer_core (s : AcousticSession) : core (fireTimer s) = core s := by
  unfold fireTimer
  split
  · rfl
  · dsimp only
    split
    · rw [armDeadline_core]
      rfl
    · rfl

/-- Retransmitting a handshake unit makes only the machine's moves. -/
theorem retransmitHandshake_moves (hs : Moves x c (core s)) :
    Moves x c (core (left (retransmitHandshake options s))) := by
  unfold retransmitHandshake
  split
  · refine attempt_bind hs ?_
    intro body _
    exact send_continue_moves hs (by simp [Negotiating])
  · refine attempt_bind hs ?_
    intro body _
    exact send_continue_moves hs (by simp [Negotiating])
  · exact send_continue_moves hs (by simp [Negotiating])
  · exact hs

/-- The retry of the handshake makes only the machine's moves. -/
theorem fireHandshake_moves (hs : Moves x c (core s)) :
    Moves x c (core (left (fireHandshake options s))) := by
  unfold fireHandshake
  split
  · exact hs
  · dsimp only
    split
    · exact hs
    · refine retransmitHandshake_moves ?_
      exact hs

/-- The retry of a probe makes only the machine's moves. -/
theorem fireProbe_moves (hs : Moves x c (core s)) :
    Moves x c (core (left (fireProbe options s))) := by
  unfold fireProbe
  split
  · exact hs
  · refine retransmitProbe_moves ?_ _ _
    exact hs

/-- A probe timer whose handle was lost makes only the machine's moves. -/
theorem fireStrayProbe_moves (hs : Moves x c (core s)) (index : ℕ) :
    Moves x c (core (left (fireStrayProbe options index s))) := by
  unfold fireStrayProbe
  split
  · exact hs
  · refine retransmitProbe_moves ?_ _ _
    exact hs

/-- The retry of the commit makes only the machine's moves. -/
theorem fireCommit_moves (hs : Moves x c (core s)) :
    Moves x c (core (left (fireCommit options s))) := by
  unfold fireCommit
  split
  · exact hs
  · dsimp only
    split
    · exact hs
    · split
      · exact hs
      · refine send_continue_moves ?_ (by simp [Negotiating])
        exact hs

/-- The delivery timer firing makes the moves of what it was armed for. -/
theorem fireDelivery_moves (hs : Moves x c (core s)) (readings : Readings)
    (hrole : x.role = options.role) (hnow : x.now = readings.now)
    (hexhausted : s.sequence = uint32Max → x.exhausted) :
    Moves x c (core (left (fireDelivery options readings s))) := by
  unfold fireDelivery
  split
  · exact hs
  · next timer htimer =>
    have hclear : Moves x c (core (clearDeliveryTimer s)) := hs.tail (Move.clearTimer (core s))
    dsimp only
    split
    · exact hclear
    · cases htask : timer.task with
      | driveTurn => exact driveTurn_moves hclear readings hrole hnow (fun h _ => hexhausted h)
      | onAckTimeout packetId attempt =>
        exact onAckTimeout_moves hclear readings hrole hnow hexhausted packetId attempt
      | beginRecovery => exact beginRecovery_moves hclear readings hrole
      | markHeartbeatMissed => exact markHeartbeatMissed_moves hclear
      | recoveryReply sessionId =>
        dsimp only [runDeliveryTask]
        split
        · cases hsend : send options .heartbeat (some sessionId) [] (clearDeliveryTimer s) with
          | error f =>
            rw [left_error, send_error options hsend]
            exact hclear
          | ok t =>
            obtain ⟨id, -, hwf, rfl⟩ := send_ok options hsend
            exact hs.tail (Move.recoveryReply (core s) timer sessionId [_] htimer htask
              (by simp [controlUnit]) (by simpa using hwf))
        · exact hclear

/-- The periodic heartbeat firing makes the moves of a heartbeat. -/
theorem fireHeartbeat_moves (hs : Moves x c (core s)) (readings : Readings)
    (hrole : x.role = options.role) (hnow : x.now = readings.now)
    (hexhausted : s.sequence = uint32Max → x.exhausted) :
    Moves x c (core (left (fireHeartbeat options readings s))) := by
  unfold fireHeartbeat
  split
  · exact hs
  · dsimp only
    split
    · exact hs
    · refine moves_bind (heartbeat_moves ?_ readings hrole hnow ?_) ?_
      · exact hs
      · exact hexhausted
      · intro t _ ht
        rw [left_pure, scheduleHeartbeat_core]
        exact ht

/-- The liveness deadline firing makes the moves of a missed heartbeat. -/
theorem fireHeartbeatDeadline_moves (hs : Moves x c (core s)) :
    Moves x c (core (fireHeartbeatDeadline options s)) := by
  unfold fireHeartbeatDeadline
  split
  · exact hs
  · dsimp only
    split
    · exact hs
    · refine markHeartbeatMissed_moves ?_
      exact hs

/-- A timer firing makes only the machine's moves, by cases on its name. -/
theorem fire_moves (hs : Moves x c (core s)) (readings : Readings)
    (hrole : x.role = options.role) (hnow : x.now = readings.now)
    (hexhausted : s.sequence = uint32Max → x.exhausted) (name : TimerName) :
    Moves x c (core (left (fire options readings name s))) := by
  cases name with
  | timer =>
    rw [fire, left_ok, fireTimer_core]
    exact hs
  | handshakeTimer => exact fireHandshake_moves hs
  | probeTimer => exact fireProbe_moves hs
  | strayProbeTimer index => exact fireStrayProbe_moves hs index
  | commitTimer => exact fireCommit_moves hs
  | deliveryTimer => exact fireDelivery_moves hs readings hrole hnow hexhausted
  | heartbeatTimer => exact fireHeartbeat_moves hs readings hrole hnow hexhausted
  | heartbeatDeadline => exact fireHeartbeatDeadline_moves hs

/-- A settled continuation makes only the machine's moves, by cases on where it waited. -/
theorem runSite_moves (hs : Moves x c (core s)) (readings : Readings)
    (hrole : x.role = options.role) (rejected : Bool) (completion : Completion) :
    Moves x c (core (left (runSite options readings rejected completion s))) := by
  unfold runSite
  split
  · split
    · split
      · exact fail_moves hs _
      · rw [left_ok]
        unfold armHandshakeRetry
        split <;> exact hs
    · exact hs
  · split
    · exact fail_moves hs _
    · rw [left_ok, armProbeRetry_core]
      exact hs
  · split
    · exact fail_moves hs _
    · rw [left_ok, scheduleRetry_core]
      exact hs
  · split
    · exact fail_moves hs _
    · rw [left_ok, armCommitRetry_core]
      exact hs
  · split
    · exact degrade_moves hs _
    · exact armAckTimeout_moves hs _ _ _ _
  · split
    · exact restartSession_moves hs readings hrole
    · exact armRecoveryTimeout_moves hs _ _
  · exact restart_moves hs readings hrole _ _

/-- Every action of a session is a sequence of moves of its core. -/
theorem act_moves (readings : Readings) (action : Action) (hreceived : x.received = none)
    (hstart : x.start = core s)
    (hrole : x.role = options.role)
    (hnow : x.now = readings.now)
    (hexhausted : s.sequence = uint32Max → x.exhausted)
    (hwrap : ∀ packet trafficClass, action = .enqueuePacket packet trafficClass →
      s.delivery.packetId = uint32Max → x.wrapping)
    (hfit : acknowledging s.tasks = true → x.role = .a) :
    Moves x (core s) (core (act options readings action s)) := by
  have hs : Moves x (core s) (core s) := .refl
  unfold act
  split
  · exact start_moves hs readings hrole
  · split
    · exact reset_moves hs hrole _
    · exact hs
  · refine (reset_moves hs hrole _).tail (Move.unsubscribe _ hreceived ?_)
    rw [hrole]
    rfl
  · exact heartbeat_moves hs readings hrole hnow hexhausted
  · exact markHeartbeatMissed_moves hs
  · exact enqueuePacket_moves hs readings _ _ hrole hnow (hwrap _ _ rfl)
  · exact fire_moves hs readings hrole hnow hexhausted _
  · unfold settleCompletion
    split
    · exact hs
    · refine runSite_moves ?_ readings hrole _ _
      exact hs
  · exact stepWork_moves hs hstart _ hfit
  · exact stepOrphan_moves hs hstart _ _ hfit

/-- Only A ever has a COMMIT to answer. -/
theorem fit_move {d : Core} (h : Move x c d) (hc : c.acknowledging = true → x.role = .a) :
    d.acknowledging = true → x.role = .a := by
  cases h with
  | work _ acknowledging hwork => exact fun hack => (hwork hack).elim hc id
  | _ => exact hc

/-- Only the first role ever waits for an acknowledgement, after any moves. -/
theorem fit_moves {d : Core} (hmoves : Moves x c d) (hc : c.acknowledging = true → x.role = .a) :
    d.acknowledging = true → x.role = .a := by
  induction hmoves with
  | refl => exact hc
  | tail _ hmove ih => exact fit_move hmove ih

/-- What every move keeps holds of the core in every reachable state. -/
theorem core_run {options : AcousticSessionOptions} {Keeps : Core → Prop}
    (hinitial : Keeps (core (initialSession options.role)))
    (hmove : ∀ {x : Context} {c d : Core}, x.role = options.role →
      x.candidates = options.candidates → Move x c d → Keeps c → Keeps d)
    (events : List (Readings × Event)) : Keeps (core (runSession options events)) := by
  have hmoves : ∀ {x : Context} {c d : Core}, x.role = options.role →
      x.candidates = options.candidates → Moves x c d → Keeps c → Keeps d := by
    intro x c d hrole hcandidates hsteps hc
    induction hsteps with
    | refl => exact hc
    | tail _ hstep ih => exact hmove hrole hcandidates hstep ih
  suffices h : (acknowledging (runSession options events).tasks = true → options.role = .a) ∧
      Keeps (core (runSession options events)) from h.2
  refine invariant (step options)
    (I := fun s => (acknowledging s.tasks = true → options.role = .a) ∧ Keeps (core s))
    (fun s event hs => ?_) ⟨?_, hinitial⟩ events
  · obtain ⟨readings, event⟩ := event
    obtain ⟨hfit, hkeeps⟩ := hs
    cases event with
    | act action =>
      have hsteps : Moves ⟨options.role, core s, readings.now, none, options.candidates, True, True⟩
          (core s) (core (act options readings action s)) :=
        act_moves readings action rfl rfl rfl rfl (fun _ => trivial) (fun _ _ _ _ => trivial) hfit
      exact ⟨fit_moves hsteps hfit, hmoves rfl rfl hsteps hkeeps⟩
    | receive raw =>
      simp only [step, receive]
      cases hdecode : decodeFas1 raw with
      | error message => exact ⟨hfit, hkeeps⟩
      | ok unit =>
        have hsteps : Moves
            ⟨options.role, core s, readings.now, some unit, options.candidates, True, True⟩
            (core s) (core (deliverUnit options readings unit s)) :=
          deliverUnit_moves readings rfl rfl rfl rfl rfl
        exact ⟨fit_moves hsteps hfit, hmoves rfl rfl hsteps hkeeps⟩
  · simp [initialSession, acknowledging, chainAcknowledges]

/-- A move only adds well-formed units to what was sent. -/
theorem sent_move {d : Core} (h : Move x c d) :
    ∃ units, d.sent = c.sent ++ units ∧ ∀ unit ∈ units, unit.WellFormed := by
  cases h with
  | negotiate _ units state hunits hwf => exact ⟨units, rfl, hwf⟩
  | closeTurn _ beats turnEnd hbeats htype hwf => exact ⟨beats ++ [turnEnd], by simp, hwf⟩
  | unclosedHeartbeat _ beat htype hwf => exact ⟨[beat], rfl, by simpa using hwf⟩
  | burst _ pending turnEnd count hstate howner hactive hawaiting hmissing htype hwf =>
    exact ⟨_, rfl, hwf⟩
  | replyAck _ unit ackUnit ack count hunit htype hstate hsession howner hack hackType hackSession
      hackPacket hackBitmap hwf => exact ⟨_, rfl, hwf⟩
  | resync unit units timer hunit htype hsession hstate hunits hwf => exact ⟨units, rfl, hwf⟩
  | recoveryReply _ timer sessionId units htimer htask hunits hwf => exact ⟨units, rfl, hwf⟩
  | _ => exact ⟨[], by simp [resetCore], by simp⟩

/-- Moves only add units behind those sent, and every one is well formed. -/
theorem sent_moves {d : Core} (hmoves : Moves x c d) :
    ∃ units, d.sent = c.sent ++ units ∧ ∀ unit ∈ units, unit.WellFormed := by
  induction hmoves with
  | refl => exact ⟨[], by simp, by simp⟩
  | tail _ hmove ih =>
    obtain ⟨before, hbefore, hwf⟩ := ih
    obtain ⟨after, hafter, hwf'⟩ := sent_move hmove
    refine ⟨before ++ after, by rw [hafter, hbefore, List.append_assoc], ?_⟩
    intro unit hunit
    exact (List.mem_append.mp hunit).elim (hwf unit) (hwf' unit)

end Fipwave.DeliveryRefinement
