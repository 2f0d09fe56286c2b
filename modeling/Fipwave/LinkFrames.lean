import Fipwave.TurnToken

/-!
# What a step does to the session identifier and the pending packets

Almost every method stays in its session: identifier, epoch, generation and
the sessions left are as before, the session does not come to rest, it
becomes ready only with an identifier, and every packet pending afterwards
was pending before or has just been cut. Only a reset leaves a session, and
only a session at rest is given a new identifier. A step does at most one of
each, in this order.
-/

namespace Fipwave.LinkFrames

open ByteWords ScriptIntegers ThrowingMethod AcousticProtocol SettingsCommitment PacketFragments
  AcousticHandshake AcousticState AcousticMethods AcousticNegotiation AcousticDelivery
  AcousticSession
open TurnToken (mem_pendingOf mem_dequeue mem_pushPacket)

variable {options : AcousticSessionOptions} {s t u : AcousticSession}

/-- Fragments of a packet that was cut. -/
def Cut (fragments : List Fas1Unit) : Prop :=
  fragments ≠ [] ∧ ∀ unit ∈ fragments, unit.WellFormed

/-- The second session is still in the session of the first one. -/
structure Stays (role : AcousticRole) (s t : AcousticSession) : Prop where
  /-- The same epoch. -/
  epoch : t.link.epoch = s.link.epoch
  /-- The same generation. -/
  generation : t.link.generation = s.link.generation
  /-- The same identifier. -/
  sessionId : t.link.sessionId = s.link.sessionId
  /-- The same sessions left. -/
  retired : t.link.retiredSessionIds = s.link.retiredSessionIds
  /-- It did not come to rest. -/
  state : t.state = s.state ∨ t.state ≠ restState role
  /-- It became ready only with an identifier. -/
  ready : t.state = .ready → s.state = .ready ∨ s.link.sessionId ≠ none
  /-- Its packets were pending before, or were just cut. -/
  packets : ∀ pending ∈ pendingPackets t,
    (∃ other ∈ pendingPackets s, other.fragments = pending.fragments) ∨ Cut pending.fragments

theorem Stays.refl (role : AcousticRole) (s : AcousticSession) : Stays role s s :=
  ⟨rfl, rfl, rfl, rfl, .inl rfl, .inl, fun pending hmem => .inl ⟨pending, hmem, rfl⟩⟩

theorem Stays.trans {role : AcousticRole} (h : Stays role s t) (h' : Stays role t u) :
    Stays role s u := by
  refine ⟨h'.epoch.trans h.epoch, h'.generation.trans h.generation,
    h'.sessionId.trans h.sessionId, h'.retired.trans h.retired, ?_, fun hready => ?_,
    fun pending hmem => ?_⟩
  · rcases h'.state with hsame | haway
    · rw [hsame]
      exact h.state
    · exact .inr haway
  · rcases h'.ready hready with hready | hsession
    · exact h.ready hready
    · rw [h.sessionId] at hsession
      exact .inr hsession
  · rcases h'.packets pending hmem with ⟨other, hother, hsame⟩ | hcut
    · rw [← hsame]
      exact h.packets other hother
    · exact .inr hcut

/-- A change that touches neither the link nor the state, and drops packets at most. -/
theorem stays_fewer {role : AcousticRole} (hlink : t.link = s.link) (hstate : t.state = s.state)
    (hpackets : ∀ pending ∈ pendingPackets t, pending ∈ pendingPackets s) : Stays role s t := by
  refine ⟨?_, ?_, ?_, ?_, .inl hstate, fun hready => .inl (hstate ▸ hready),
    fun pending hmem => .inl ⟨pending, hpackets pending hmem, rfl⟩⟩ <;> rw [hlink]

/-- A change that touches neither the link nor the state nor a packet. -/
theorem stays_same {role : AcousticRole} (hlink : t.link = s.link) (hstate : t.state = s.state)
    (hpackets : pendingPackets t = pendingPackets s) : Stays role s t :=
  stays_fewer hlink hstate (fun _ hmem => hpackets ▸ hmem)

/-- The states a session does not rest in. -/
theorem not_rest (role : AcousticRole) (state : AcousticSessionState)
    (h : state ≠ .idle ∧ state ≠ .listening ∧ state ≠ .ready) : state ≠ restState role := by
  cases role
  · exact h.1
  · exact h.2.1

/-- A change of state away from rest, but not to the ready state. -/
theorem stays_away {role : AcousticRole} (state : AcousticSessionState) (hlink : t.link = s.link)
    (hstate : t.state = state) (hpackets : pendingPackets t = pendingPackets s)
    (h : state ≠ .idle ∧ state ≠ .listening ∧ state ≠ .ready) : Stays role s t := by
  have haway : t.state ≠ restState role := by
    rw [hstate]
    exact not_rest role state h
  have hready : t.state ≠ .ready := by
    rw [hstate]
    exact h.2.2
  refine ⟨?_, ?_, ?_, ?_, .inr haway, fun hsame => absurd hsame hready,
    fun pending hmem => .inl ⟨pending, hpackets ▸ hmem, rfl⟩⟩ <;> rw [hlink]

/-- A method that is entered after a change that drops packets at most. -/
theorem Stays.afterFewer {role : AcousticRole} (h : Stays role t u) (hlink : t.link = s.link)
    (hstate : t.state = s.state)
    (hpackets : ∀ pending ∈ pendingPackets t, pending ∈ pendingPackets s) : Stays role s u :=
  (stays_fewer hlink hstate hpackets).trans h

/-- A method that is entered after a change that touches no packet. -/
theorem Stays.after {role : AcousticRole} (h : Stays role t u) (hlink : t.link = s.link)
    (hstate : t.state = s.state) (hpackets : pendingPackets t = pendingPackets s) :
    Stays role s u :=
  (stays_same hlink hstate hpackets).trans h

/-- A pending packet is the active one or waits in one of the three queues. -/
theorem mem_pendingPackets {pending : PendingPacket} :
    pending ∈ pendingPackets s ↔ s.delivery.active = some pending ∨
      pending ∈ s.delivery.queues.control ∨ pending ∈ s.delivery.queues.heartbeat ∨
      pending ∈ s.delivery.queues.ordinary := mem_pendingOf

/-- The active packet is given up. -/
theorem pendingPackets_inactive (hactive : t.delivery.active = none)
    (hqueues : t.delivery.queues = s.delivery.queues) :
    ∀ pending ∈ pendingPackets t, pending ∈ pendingPackets s := by
  intro pending hmem
  rw [mem_pendingPackets, hactive, hqueues] at hmem
  rcases hmem with hnone | hmem
  · cases hnone
  · exact mem_pendingPackets.mpr (.inr hmem)

/-- The active packet is tried again or acknowledged. -/
theorem stays_active {role : AcousticRole} {pending other : PendingPacket}
    (hlink : t.link = s.link) (hstate : t.state = s.state)
    (hactive : s.delivery.active = some pending) (hafter : t.delivery.active = some other)
    (hsame : pending.fragments = other.fragments)
    (hqueues : t.delivery.queues = s.delivery.queues) : Stays role s t := by
  refine ⟨?_, ?_, ?_, ?_, .inl hstate, fun hready => .inl (hstate ▸ hready),
    fun entry hmem => .inl ?_⟩
  any_goals rw [hlink]
  rw [mem_pendingPackets, hafter, hqueues] at hmem
  rcases hmem with hentry | hmem
  · cases hentry
    exact ⟨pending, mem_pendingPackets.mpr (.inl hactive), hsame⟩
  · exact ⟨entry, mem_pendingPackets.mpr (.inr hmem), rfl⟩

/-- A method stays in the session if both its parts do, whichever of them throws. -/
theorem stays_bind {role : AcousticRole} {m : Outcome} {g : AcousticSession → Outcome}
    (hfirst : Stays role s (left m))
    (hsecond : ∀ t, m = .ok t → Stays role t (left (g t))) : Stays role s (left (m >>= g)) := by
  refine left_bind (P := fun t => Stays role s t) ?_ ?_
  · intro f hf
    simpa [hf] using hfirst
  · intro t ht
    have ht' : Stays role s t := by simpa [ht] using hfirst
    exact ht'.trans (hsecond t ht)

/-- A pure step either throws in place or hands its value on. -/
theorem stays_attempt {role : AcousticRole} {α : Type} {result : Except String α} {g : α → Outcome}
    (hreturn : ∀ value, result = .ok value → Stays role s (left (g value))) :
    Stays role s (left (attempt result s >>= g)) := by
  cases h : result with
  | error message => exact Stays.refl role s
  | ok value => exact hreturn value h

section Methods

variable {role : AcousticRole}

/-- Putting a unit on the air touches nothing but the log of units. -/
theorem transmit_stays (unit : Fas1Unit) (s : AcousticSession) :
    Stays role s (left (transmit unit s)) := by
  cases ht : transmit unit s with
  | error f =>
    rw [left_error, (transmit_error ht).2]
    exact Stays.refl role s
  | ok t =>
    obtain ⟨-, rfl⟩ := transmit_ok ht
    exact stays_same rfl rfl rfl

/-- Sending a unit only counts it and puts it on the air, whether or not it can be encoded. -/
theorem send_stays (type : Fas1UnitType) (sessionId : Option ℕ) (body : Bytes)
    (s : AcousticSession) : Stays role s (left (send options type sessionId body s)) := by
  cases ht : send options type sessionId body s with
  | error f =>
    rw [left_error, send_error options ht]
    exact stays_same rfl rfl rfl
  | ok t =>
    obtain ⟨id, -, -, rfl⟩ := send_ok options ht
    exact stays_same rfl rfl rfl

/-- A failure leaves the session in a state that is no rest, with its identifier. -/
theorem fail_stays (reason : String) (s : AcousticSession) : Stays role s (fail reason s) :=
  stays_away .error rfl rfl rfl (by decide)

/-- A degraded session keeps its identifier and does not become ready. -/
theorem degrade_stays (reason : String) (s : AcousticSession) :
    Stays role s (degrade options reason s) := by
  unfold degrade
  split
  · exact Stays.refl role s
  · exact stays_away .degraded rfl rfl rfl (by decide)

/-- A missed heartbeat degrades the session at most. -/
theorem markHeartbeatMissed_stays (s : AcousticSession) :
    Stays role s (markHeartbeatMissed options s) := by
  unfold markHeartbeatMissed
  split
  · exact Stays.refl role s
  · exact stays_away .degraded rfl rfl rfl (by decide)

/-- The next heartbeat is a matter of timers alone. -/
theorem scheduleHeartbeat_stays (captured : BoundTimer) (s : AcousticSession) :
    Stays role s (scheduleHeartbeat options captured s) := by
  unfold scheduleHeartbeat
  split
  · exact Stays.refl role s
  · exact stays_same rfl rfl rfl

/-- Arming both heartbeat timers is a matter of timers alone. -/
theorem armHeartbeatTimers_stays (s : AcousticSession) :
    Stays role s (armHeartbeatTimers options s) := by
  have hschedule : Stays role s (scheduleHeartbeat options (boundTimer 0 s) s) :=
    scheduleHeartbeat_stays _ _
  unfold armHeartbeatTimers
  split
  · exact Stays.refl role s
  · exact hschedule.trans (stays_same rfl rfl rfl)

/-- Arming the retry of the handshake is a matter of timers alone. -/
theorem armHandshakeRetry_stays (s : AcousticSession) : Stays role s (armHandshakeRetry s) := by
  unfold armHandshakeRetry
  split
  · exact Stays.refl role s
  · exact stays_same rfl rfl rfl

/-- Arming the retry of the COMMIT is a matter of timers alone. -/
theorem armCommitRetry_stays (s : AcousticSession) : Stays role s (armCommitRetry options s) := by
  unfold armCommitRetry
  split
  · exact Stays.refl role s
  · exact stays_same rfl rfl rfl

/-- Arming the deadline of the handshake is a matter of timers alone. -/
theorem armDeadline_stays (s : AcousticSession) : Stays role s (armDeadline s) := by
  unfold armDeadline
  split
  · exact Stays.refl role s
  · exact stays_same rfl rfl rfl

/-- Taking the candidate of the own direction over only tunes the codec. -/
theorem applyOutboundCandidate_stays (s : AcousticSession) :
    Stays role s (applyOutboundCandidate options s) := by
  unfold applyOutboundCandidate
  split
  · exact Stays.refl role s
  · exact stays_same rfl rfl rfl

/-- A HELLO_ACK moves A on within the session whose identifier it carries. -/
theorem onHelloAck_stays (sessionId : ℕ) (body : Bytes) (s : AcousticSession) :
    Stays role s (left (onHelloAck options sessionId body s)) := by
  unfold onHelloAck
  split
  · exact Stays.refl role s
  · refine stays_attempt (fun ack _ => ?_)
    dsimp only
    split
    · exact Stays.refl role s
    · have hcaps : Stays role s { clearHandshakeRetry s with
          state := .capsSent
          link.peerNonce := some ack.nonce } :=
        ⟨rfl, rfl, rfl, rfl, .inr (not_rest role .capsSent (by decide)), fun h => (by cases h),
          fun pending hmem => .inl ⟨pending, hmem, rfl⟩⟩
      refine hcaps.trans (stays_bind (send_stays _ _ _ _) (fun u _ => ?_))
      exact stays_same rfl rfl rfl

/-- Sending the next probe of a direction stays in the session. -/
theorem driveProbe_stays (direction : Direction) (s : AcousticSession) :
    Stays role s (left (driveProbe options direction s)) := by
  unfold driveProbe
  split
  · exact Stays.refl role s
  · split
    · exact Stays.refl role s
    · dsimp only
      split
      · exact Stays.refl role s
      · refine stays_attempt (fun probe _ => ?_)
        refine (stays_bind (send_stays _ _ _ _) (fun u _ => ?_)).after rfl rfl rfl
        exact stays_same rfl rfl rfl

/-- The capabilities of the peer begin the probes of the first direction in the same session. -/
theorem onCaps_stays (sessionId : ℕ) (body : Bytes) (s : AcousticSession) :
    Stays role s (left (onCaps options sessionId body s)) := by
  have hcalibrating : Stays role s
      (armDeadline { clearHandshakeRetry s with state := .calibratingAToB }) := by
    have hset : Stays role s { clearHandshakeRetry s with state := .calibratingAToB } :=
      stays_away .calibratingAToB rfl rfl rfl (by decide)
    exact hset.trans (armDeadline_stays _)
  unfold onCaps
  split
  · exact Stays.refl role s
  · split
    · exact hcalibrating.trans (send_stays _ _ _ _)
    · split
      · exact (send_stays _ _ _ _).after rfl rfl rfl
      · split
        · exact hcalibrating.trans (driveProbe_stays _ _)
        · exact Stays.refl role s

/-- The retry of a probe is scheduled by its timer alone. -/
theorem scheduleRetry_stays (direction : Direction) (ordinal : ℕ) (s : AcousticSession) :
    Stays role s (scheduleRetry options direction ordinal s) := by
  unfold scheduleRetry
  split
  · exact stays_same rfl rfl rfl
  · exact Stays.refl role s

/-- The retry of a probe is armed only where its direction is still being probed. -/
theorem armProbeRetry_stays (direction : Direction) (ordinal : ℕ) (s : AcousticSession) :
    Stays role s (armProbeRetry options direction ordinal s) := by
  have hclear : Stays role s { clearProbeRetry s with
      calibration.probeRetry := some ⟨direction, ordinal, 0⟩ } := stays_same rfl rfl rfl
  exact hclear.trans (scheduleRetry_stays _ _ _)

/-- A probe that goes unanswered is sent again in the same session. -/
theorem retransmitProbe_stays (direction : Direction) (ordinal : ℕ) (s : AcousticSession) :
    Stays role s (left (retransmitProbe options direction ordinal s)) := by
  unfold retransmitProbe
  split
  · refine (stays_attempt (fun probe _ => ?_)).after rfl rfl rfl
    refine (stays_bind (send_stays _ _ _ _) (fun u _ => ?_)).after rfl rfl rfl
    exact stays_same rfl rfl rfl
  · exact Stays.refl role s

/-- A direction that is fully probed moves the session on. It is still the same session. -/
theorem completeDirection_stays (direction : Direction) (s : AcousticSession) :
    (∀ f, completeDirection options direction s = .error f → Stays role s f.state) ∧
      ∀ r, completeDirection options direction s = .ok r → Stays role s r.2 := by
  unfold completeDirection
  split
  · refine ⟨fun f hf => (by cases hf), fun r hr => ?_⟩
    cases hr
    exact Stays.refl role s
  · split
    · refine ⟨fun f hf => (by cases hf), fun r hr => ?_⟩
      cases hr
      exact fail_stays _ s
    · next candidate _ =>
      dsimp only
      split
      · have hstate : Stays role s { s with
            calibration.selected := s.calibration.selected.set (some candidate) .aToB
            state := .calibratingBToA } := stays_away .calibratingBToA rfl rfl rfl (by decide)
        split
        · have hprobe : Stays role s (left (driveProbe options .bToA { s with
              calibration.selected := s.calibration.selected.set (some candidate) .aToB
              state := .calibratingBToA })) := hstate.trans (driveProbe_stays .bToA _)
          refine ⟨fun f hf => ?_, fun r hr => ?_⟩
          · cases hm : driveProbe options .bToA _ with
            | error g =>
              rw [hm] at hf hprobe
              cases hf
              exact hprobe
            | ok v =>
              rw [hm] at hf
              cases hf
          · obtain ⟨v, hv, hr⟩ := bind_ok hr
            rw [hv] at hprobe
            cases hr
            exact hprobe
        · refine ⟨fun f hf => (by cases hf), fun r hr => ?_⟩
          cases hr
          exact hstate
      · have hstate : Stays role s { s with
            calibration.selected := s.calibration.selected.set (some candidate) .bToA
            state := .committing } := stays_away .committing rfl rfl rfl (by decide)
        split
        · refine ⟨fun f hf => (by cases hf), fun r hr => ?_⟩
          cases hr
          exact hstate.trans (stays_same rfl rfl rfl)
        · refine ⟨fun f hf => (by cases hf), fun r hr => ?_⟩
          cases hr
          exact hstate

/-- What follows the completion of a direction. -/
theorem completeDirection_bind (direction : Direction) (s : AcousticSession)
    {g : Bool × AcousticSession → Outcome}
    (h : ∀ complete t, Stays role t (left (g (complete, t)))) :
    Stays role s (left (completeDirection options direction s >>= g)) := by
  cases hm : completeDirection options direction s with
  | error f => exact (completeDirection_stays direction s).1 f hm
  | ok r => exact ((completeDirection_stays direction s).2 r hm).trans (h r.1 r.2)

/-- A probe of the peer is measured and reported, and the last one of a direction moves the session
on. -/
theorem onProbe_stays (readings : Readings) (sessionId : ℕ) (body : Bytes) (s : AcousticSession) :
    Stays role s (left (onProbe options readings sessionId body s)) := by
  unfold onProbe
  split
  · exact Stays.refl role s
  · refine stays_attempt (fun direction _ => ?_)
    dsimp only
    split
    · split
      · exact Stays.refl role s
      · split
        · exact (send_stays _ _ _ _).after rfl rfl rfl
        · exact Stays.refl role s
    · split
      · exact Stays.refl role s
      · refine stays_attempt (fun probe _ => ?_)
        refine (stays_attempt (fun observation _ => ?_)).after rfl rfl rfl
        refine (stays_bind (send_stays _ _ _ _) (fun u _ => ?_)).after rfl rfl rfl
        exact completeDirection_bind direction u (fun complete v => Stays.refl role v)

/-- A report is taken for the probe it answers; the next probe follows, or the choice of a
candidate. -/
theorem onReport_stays (sessionId : ℕ) (body : Bytes) (s : AcousticSession) :
    Stays role s (left (onReport options sessionId body s)) := by
  unfold onReport
  split
  · exact Stays.refl role s
  · refine stays_attempt (fun decoded _ => ?_)
    obtain ⟨probe, observation⟩ := decoded
    dsimp only
    split
    · exact Stays.refl role s
    · refine (completeDirection_bind probe.direction _ (fun complete v => ?_)).after rfl rfl rfl
      dsimp only
      split
      · exact Stays.refl role v
      · exact driveProbe_stays _ _

/-- B takes the settings of a COMMIT over within its session. -/
theorem onCommit_stays (sessionId : ℕ) (body : Bytes) (s : AcousticSession) :
    Stays role s (left (onCommit options sessionId body s)) := by
  unfold onCommit
  split
  · exact Stays.refl role s
  · split
    · refine (stays_bind (send_stays _ _ _ _) (fun u _ => ?_)).after rfl rfl rfl
      split
      · exact send_stays _ _ _ _
      · exact Stays.refl role u
    · split
      · exact Stays.refl role s
      · exact stays_same rfl rfl rfl

/-- A learns that its settings were accepted, and asks for a first heartbeat. -/
theorem onCommitAck_stays (sessionId : ℕ) (body : Bytes) (s : AcousticSession) :
    Stays role s (left (onCommitAck options sessionId body s)) := by
  unfold onCommitAck
  split
  · exact Stays.refl role s
  · have hset : Stays role s { s with
        state := .awaitingHeartbeat
        delivery.turnOwner := some .a } := stays_away .awaitingHeartbeat rfl rfl rfl (by decide)
    exact hset.trans (armCommitRetry_stays _)

/-- Dropping stale packets of the queues leaves the other ones pending. -/
theorem expireQueues_stays (now : ℕ) (s : AcousticSession) : Stays role s (expireQueues now s) := by
  refine stays_fewer rfl rfl (fun pending hmem => ?_)
  rw [mem_pendingPackets] at hmem ⊢
  rcases hmem with hactive | hmem | hmem | hmem
  · exact .inl hactive
  · exact .inr (.inl (List.mem_filter.mp hmem).1)
  · exact .inr (.inr (.inl (List.mem_filter.mp hmem).1))
  · exact .inr (.inr (.inr (List.mem_filter.mp hmem).1))

/-- Dropping a stale active packet leaves the queued ones pending. -/
theorem expireActive_stays (now : ℕ) (s : AcousticSession) :
    Stays role s (expireActive options now s) := by
  unfold expireActive
  split
  · exact Stays.refl role s
  · split
    · exact (degrade_stays _ _).afterFewer rfl rfl (pendingPackets_inactive rfl rfl)
    · exact Stays.refl role s

/-- Dropping a stale assembly touches no packet of the own queues. -/
theorem expireInbound_stays (now : ℕ) (s : AcousticSession) :
    Stays role s (expireInbound now s) := by
  unfold expireInbound
  dsimp only
  split
  · exact stays_same rfl rfl rfl
  · split <;> exact stays_same rfl rfl rfl

/-- Dropping everything that is stale only takes packets away. -/
theorem expireWork_stays (now : ℕ) (s : AcousticSession) :
    Stays role s (expireWork options now s) :=
  ((expireQueues_stays now s).trans (expireActive_stays now _)).trans (expireInbound_stays now _)

/-- The next packet moves from its queue to the active place and is pending as before. -/
theorem activate_stays (s : AcousticSession) : Stays role s (activate s) := by
  unfold activate
  split
  · exact Stays.refl role s
  · refine stays_fewer rfl rfl (fun pending hmem => ?_)
    exact mem_pendingPackets.mpr (.inr (mem_dequeue (mem_pendingPackets.mp hmem)))

/-- The timeout of an ACK is armed by its timer alone. -/
theorem armAckTimeout_stays (generation sessionId : ℕ) (fragments : List Fas1Unit) (attempt : ℕ)
    (s : AcousticSession) :
    Stays role s (armAckTimeout options generation sessionId fragments attempt s) := by
  unfold armAckTimeout
  split
  · exact Stays.refl role s
  · split
    · exact Stays.refl role s
    · exact stays_same rfl rfl rfl

/-- Closing a turn sends one unit and hands the token over. -/
theorem closeTurn_stays (sessionId : ℕ) (s : AcousticSession) :
    Stays role s (left (closeTurn options sessionId s)) :=
  stays_bind (send_stays _ _ _ _) (fun _ _ => stays_same rfl rfl rfl)

/-- Putting several units on the air touches nothing but the log of units. -/
theorem transmitAll_stays (units : List Fas1Unit) (s : AcousticSession) :
    Stays role s (left (units.foldlM (fun s unit => transmit unit s) s)) := by
  induction units generalizing s with
  | nil => exact Stays.refl role s
  | cons unit units ih =>
    rw [List.foldlM_cons]
    exact stays_bind (transmit_stays unit s) (fun t _ => ih t)

/-- A burst changes the count of attempts of the active packet and not its fragments. -/
theorem sendBurst_stays (sessionId : ℕ) {pending : PendingPacket} (missing : List Fas1Unit)
    (s : AcousticSession) (hactive : s.delivery.active = some pending) :
    Stays role s (left (sendBurst options sessionId pending missing s)) := by
  unfold sendBurst
  dsimp only
  have hburst : Stays role s { s with
      delivery.active := some { pending with attempts := pending.attempts + 1 }
      delivery.awaitingAck := true } := stays_active rfl rfl hactive rfl rfl rfl
  refine hburst.trans (stays_bind (transmitAll_stays missing _) (fun t _ => ?_))
  refine stays_bind (send_stays _ _ _ _) (fun u _ => ?_)
  split
  · exact stays_same rfl rfl rfl
  · exact armAckTimeout_stays _ _ _ _ _

/-- Using the own turn drops, activates or sends packets of the session and nothing else. -/
theorem driveTurn_stays (readings : Readings) (s : AcousticSession) :
    Stays role s (left (driveTurn options readings s)) := by
  have hexpired : Stays role s (expireWork options readings.now s) := expireWork_stays _ _
  unfold driveTurn
  generalize expireWork options readings.now s = t at hexpired ⊢
  dsimp only
  refine hexpired.trans ?_
  split
  · exact Stays.refl role t
  · split
    · exact Stays.refl role t
    · have hactivated : Stays role t (activate (applyOutboundCandidate options t)) :=
        (applyOutboundCandidate_stays t).trans (activate_stays _)
      refine hactivated.trans ?_
      generalize activate (applyOutboundCandidate options t) = u
      split
      · split
        · refine (stays_bind (send_stays _ _ _ _) (fun v _ => ?_)).after rfl rfl rfl
          exact closeTurn_stays _ _
        · exact closeTurn_stays _ _
      · next pending hactive =>
        split
        · exact (degrade_stays _ _).afterFewer rfl rfl (pendingPackets_inactive rfl rfl)
        · split
          · exact stays_fewer rfl rfl (pendingPackets_inactive rfl rfl)
          · exact sendBurst_stays _ _ _ hactive

/-- An ACK that does not come lets the turn be used again. -/
theorem onAckTimeout_stays (readings : Readings) (packetId attempt : ℕ) (s : AcousticSession) :
    Stays role s (left (onAckTimeout options readings packetId attempt s)) := by
  unfold onAckTimeout
  split
  · exact Stays.refl role s
  · split
    · exact Stays.refl role s
    · exact (driveTurn_stays _ _).after rfl rfl rfl

/-- The timeout of a recovery is armed by its timer alone. -/
theorem armRecoveryTimeout_stays (generation sessionId : ℕ) (s : AcousticSession) :
    Stays role s (armRecoveryTimeout options generation sessionId s) := by
  unfold armRecoveryTimeout
  split
  · exact Stays.refl role s
  · exact stays_same rfl rfl rfl

/-- Handing a complete packet to the listeners leaves the own packets alone. -/
theorem completeAssembly_stays (now sessionId payloadBytes : ℕ) (unit : Fas1Unit)
    (inbound : InboundAssembly) (s : AcousticSession) :
    Stays role s (completeAssembly now sessionId payloadBytes unit inbound s) := by
  unfold completeAssembly
  split
  · exact Stays.refl role s
  · split
    · exact stays_same rfl rfl rfl
    · split
      · exact Stays.refl role s
      · exact stays_same rfl rfl rfl

/-- Storing a fragment touches the inbound slot and the last ACK only. -/
theorem storeFragment_stays (now : ℕ) (unit : Fas1Unit) (s : AcousticSession) :
    Stays role s (storeFragment now unit s).2 := by
  unfold storeFragment
  dsimp only
  split <;> exact stays_same rfl rfl rfl

/-- A fragment of the peer is stored, handed over or ignored; the own packets are not touched. -/
theorem onData_stays (readings : Readings) (unit : Fas1Unit) (s : AcousticSession) :
    Stays role s (left (onData options readings unit s)) := by
  have hexpired : Stays role s (expireWork options readings.now s) := expireWork_stays _ _
  unfold onData
  generalize expireWork options readings.now s = t at hexpired ⊢
  dsimp only
  refine hexpired.trans ?_
  split
  · exact Stays.refl role t
  · split
    · exact stays_same rfl rfl rfl
    · split
      · exact stays_same rfl rfl rfl
      · cases hpayload : inboundPayloadBytes options t with
        | error f =>
          unfold inboundPayloadBytes at hpayload
          split at hpayload
          · cases hpayload
            exact Stays.refl role t
          · cases hpayload
        | ok payloadBytes =>
          rw [ok_bind]
          split
          · exact stays_same rfl rfl rfl
          · exact (storeFragment_stays readings.now unit t).trans
              (completeAssembly_stays _ _ _ _ _ _)

/-- The end of the peer's turn gives this end the token, and an ACK is sent at most. -/
theorem onTurnEnd_stays (sessionId : ℕ) (s : AcousticSession) :
    Stays role s (left (onTurnEnd options sessionId s)) := by
  unfold onTurnEnd
  split
  · exact Stays.refl role s
  · split
    · next ack _ =>
      have hyield : Stays role s (yieldToken options { s with delivery.lastAck := none }) :=
        stays_same rfl rfl rfl
      refine hyield.trans ?_
      unfold sendAck
      split
      · exact Stays.refl role _
      · exact transmit_stays _ _
    · exact stays_same rfl rfl rfl

/-- An ACK completes the active packet or lets its missing fragments be sent again. -/
theorem onAck_stays (sessionId packetId bitmap : ℕ) (s : AcousticSession) :
    Stays role s (left (onAck options sessionId packetId bitmap s)) := by
  unfold onAck
  split
  · exact Stays.refl role s
  · next pending hactive =>
    dsimp only
    split
    · exact Stays.refl role s
    · split
      · exact stays_same rfl rfl rfl
      · split
        · exact (closeTurn_stays _ _).afterFewer rfl rfl (pendingPackets_inactive rfl rfl)
        · exact stays_active rfl rfl hactive rfl rfl rfl

/-- The session becomes ready with the identifier it has. -/
theorem markReady_stays (readings : Readings) (s : AcousticSession)
    (hsession : s.link.sessionId ≠ none) : Stays role s (markReady options readings s) := by
  have hclear : Stays role s (if options.role = .b then clearCommitRetry s else s) := by
    split
    · exact stays_same rfl rfl rfl
    · exact Stays.refl role s
  unfold markReady
  dsimp only
  generalize (if options.role = .b then clearCommitRetry s else s) = t at hclear ⊢
  have haway : AcousticSessionState.ready ≠ restState role := by cases role <;> decide
  have hready : Stays role t { clearDeliveryTimer t with
      state := .ready
      lastHeartbeatAtMs := some readings.now } := by
    refine ⟨rfl, rfl, rfl, rfl, .inr haway, fun _ => .inr ?_,
      fun pending hmem => .inl ⟨pending, hmem, rfl⟩⟩
    rw [hclear.sessionId]
    exact hsession
  have harmed : Stays role s (armHeartbeatTimers options { clearDeliveryTimer t with
      state := .ready
      lastHeartbeatAtMs := some readings.now }) :=
    (hclear.trans hready).trans (armHeartbeatTimers_stays _)
  exact harmed.trans (stays_same rfl rfl rfl)

/-- A heartbeat makes a bootstrapping session ready or counts as a sign of life. -/
theorem onHeartbeat_stays (readings : Readings) (sessionId : ℕ) (s : AcousticSession) :
    Stays role s (left (onHeartbeat options readings sessionId s)) := by
  unfold onHeartbeat
  split
  · exact Stays.refl role s
  · next h =>
    simp only [not_or, not_not] at h
    have hsession : s.link.sessionId ≠ none := by
      rw [h.1]
      exact Option.some_ne_none sessionId
    have hready : Stays role s (markReady options readings s) :=
      markReady_stays readings s hsession
    have hturn : ∀ (back : Bool) (u : AcousticSession),
        Stays role u (if back then { u with delivery.turnOwner := some .a } else u) := by
      intro back u
      split
      · exact stays_same rfl rfl rfl
      · exact Stays.refl role u
    dsimp only
    refine hready.trans ?_
    split
    · refine stays_bind ?_ (fun u _ => hturn _ u)
      unfold replyHeartbeat
      split
      · exact stays_same rfl rfl rfl
      · exact send_stays _ _ _ _
    · exact hturn _ _

/-- A heartbeat of this end is sent at once or waits for the own turn. -/
theorem heartbeat_stays (readings : Readings) (s : AcousticSession) :
    Stays role s (left (heartbeat options readings s)) := by
  unfold heartbeat
  split
  · exact Stays.refl role s
  · exact (driveTurn_stays _ _).after rfl rfl rfl

/-- Work that throws is recorded as failed and leaves the session where it was. -/
theorem catchWork_stays (stage : Option Stage) {m : Outcome} (h : Stays role s (left m)) :
    Stays role s (catchWork stage m).2 := by
  unfold catchWork
  split
  · exact h
  · exact h.trans (fail_stays _ _)

/-- Beginning asynchronous work of the handshake stays in the session. -/
theorem startJob_stays (job : Job) (s : AcousticSession) :
    Stays role s (startJob options job s).2 := by
  unfold startJob
  split
  · split
    · exact Stays.refl role s
    · split
      · exact Stays.refl role s
      · exact (applyOutboundCandidate_stays _).after rfl rfl rfl
  · split
    · exact Stays.refl role s
    · split
      · exact fail_stays _ s
      · exact stays_same rfl rfl rfl

/-- A sends its settings once their digest is known, in the same session. -/
theorem sendCommit_stays (digest : Bytes) (s : AcousticSession) :
    Stays role s (sendCommit options digest s).2 := by
  have hsend : Stays role s (left (send options .commit s.link.sessionId digest
      { s with commitment.settingsDigest := some digest })) :=
    (send_stays _ _ _ _).after rfl rfl rfl
  unfold sendCommit
  split
  · next heq =>
    rw [heq] at hsend
    exact hsend
  · next heq =>
    rw [heq] at hsend
    exact hsend.trans (fail_stays _ _)

/-- B accepts settings whose digest agrees, and refuses others within the session. -/
theorem acknowledgeCommit_stays (received digest : Bytes) (s : AcousticSession) :
    Stays role s (acknowledgeCommit options received digest s).2 := by
  unfold acknowledgeCommit
  split
  · exact fail_stays _ s
  · refine catchWork_stays none ?_
    have happlied : Stays role s (applyOutboundCandidate options
        { s with commitment.settingsDigest := some digest }) :=
      (applyOutboundCandidate_stays _).after rfl rfl rfl
    generalize applyOutboundCandidate options
      { s with commitment.settingsDigest := some digest } = t at happlied ⊢
    have hwaiting : Stays role t { t with
        state := .awaitingHeartbeat
        delivery.turnOwner := some .a } := stays_away .awaitingHeartbeat rfl rfl rfl (by decide)
    refine (happlied.trans hwaiting).trans (stays_bind (send_stays _ _ _ _) (fun u _ => ?_))
    exact send_stays _ _ _ _

/-- Whatever a job was waiting for, it goes on in the session. -/
theorem resumeJob_stays (rejected : Bool) (stage : Stage) (s : AcousticSession) :
    Stays role s (resumeJob options rejected stage s).2 := by
  unfold resumeJob
  split
  · split
    · split
      · exact fail_stays _ s
      · exact sendCommit_stays _ s
    · exact fail_stays _ s
  · split
    · exact fail_stays _ s
    · exact armCommitRetry_stays s
  · split
    · split
      · exact fail_stays _ s
      · exact acknowledgeCommit_stays _ _ s
    · exact fail_stays _ s

/-- One link of a chain of work stays in the session, also when it is rejected. -/
theorem stepChain_stays (rejected : Bool) (chain : WorkChain) (s : AcousticSession) :
    Stays role s (stepChain options rejected chain s).2 := by
  unfold stepChain
  split
  · exact resumeJob_stays _ _ s
  · split
    · exact Stays.refl role s
    · exact startJob_stays _ s

/-- Work that is done in its turn stays in the session. -/
theorem stepWork_stays (rejected : Bool) (s : AcousticSession) :
    Stays role s (stepWork options rejected s) :=
  (stepChain_stays rejected s.tasks.work s).trans (stays_same rfl rfl rfl)

/-- Work that was left behind by a reset stays in the session it finds. -/
theorem stepOrphan_stays (index : ℕ) (rejected : Bool) (s : AcousticSession) :
    Stays role s (stepOrphan options index rejected s) := by
  unfold stepOrphan
  split
  · exact Stays.refl role s
  · exact (stepChain_stays rejected _ s).trans (stays_same rfl rfl rfl)

/-- Counting the timers that have fired touches nothing else. -/
theorem fireTimer_stays (s : AcousticSession) : Stays role s (fireTimer s) := by
  unfold fireTimer
  split
  · exact Stays.refl role s
  · dsimp only
    split
    · exact (armDeadline_stays _).after rfl rfl rfl
    · exact stays_same rfl rfl rfl

/-- The last unit of the handshake is sent again as it was. -/
theorem retransmitHandshake_stays (s : AcousticSession) :
    Stays role s (left (retransmitHandshake options s)) := by
  unfold retransmitHandshake
  split
  · refine stays_attempt (fun body _ => ?_)
    exact stays_bind (send_stays _ _ _ _) (fun _ _ => stays_same rfl rfl rfl)
  · refine stays_attempt (fun body _ => ?_)
    exact stays_bind (send_stays _ _ _ _) (fun _ _ => stays_same rfl rfl rfl)
  · exact stays_bind (send_stays _ _ _ _) (fun _ _ => stays_same rfl rfl rfl)
  · exact Stays.refl role s

/-- The retry of the handshake stays in the session its timer was bound to. -/
theorem fireHandshake_stays (s : AcousticSession) :
    Stays role s (left (fireHandshake options s)) := by
  unfold fireHandshake
  split
  · exact Stays.refl role s
  · dsimp only
    split
    · exact stays_same rfl rfl rfl
    · exact (retransmitHandshake_stays _).after rfl rfl rfl

/-- The retry of a probe stays in the session its timer was bound to. -/
theorem fireProbe_stays (s : AcousticSession) : Stays role s (left (fireProbe options s)) := by
  unfold fireProbe
  split
  · exact Stays.refl role s
  · exact (retransmitProbe_stays _ _ _).after rfl rfl rfl

/-- A probe timer that was forgotten is told from the current one by what it is bound to. -/
theorem fireStrayProbe_stays (index : ℕ) (s : AcousticSession) :
    Stays role s (left (fireStrayProbe options index s)) := by
  unfold fireStrayProbe
  split
  · exact Stays.refl role s
  · exact (retransmitProbe_stays _ _ _).after rfl rfl rfl

/-- The retry of the COMMIT stays in the session its timer was bound to. -/
theorem fireCommit_stays (s : AcousticSession) : Stays role s (left (fireCommit options s)) := by
  unfold fireCommit
  split
  · exact Stays.refl role s
  · dsimp only
    split
    · exact stays_same rfl rfl rfl
    · split
      · exact stays_same rfl rfl rfl
      · refine (stays_bind (send_stays _ _ _ _) (fun u _ => ?_)).after rfl rfl rfl
        exact stays_same rfl rfl rfl

/-- The timer of the heartbeat sends one and arms itself again. -/
theorem fireHeartbeat_stays (readings : Readings) (s : AcousticSession) :
    Stays role s (left (fireHeartbeat options readings s)) := by
  unfold fireHeartbeat
  split
  · exact Stays.refl role s
  · dsimp only
    split
    · exact stays_same rfl rfl rfl
    · refine (stays_bind (heartbeat_stays _ _) (fun u _ => ?_)).after rfl rfl rfl
      exact scheduleHeartbeat_stays _ _

/-- A heartbeat that is overdue degrades the session at most. -/
theorem fireHeartbeatDeadline_stays (s : AcousticSession) :
    Stays role s (fireHeartbeatDeadline options s) := by
  unfold fireHeartbeatDeadline
  split
  · exact Stays.refl role s
  · dsimp only
    split
    · exact stays_same rfl rfl rfl
    · exact (markHeartbeatMissed_stays _).after rfl rfl rfl

/-- A unit of the peer is a sign of life and moves the deadline of the heartbeat. -/
theorem noteLiveness_stays (unit : Fas1Unit) (s : AcousticSession) :
    Stays role s (noteLiveness options unit s) := by
  unfold noteLiveness
  split
  · exact armHeartbeatTimers_stays s
  · exact Stays.refl role s

/-- A packet is cut into at least one unit, each of which can be encoded. -/
theorem cut_of_fragmentPacket {input : FragmentPacketInput} {fragments : List Fas1Unit}
    (h : fragmentPacket input = .ok fragments)
    (hsender : input.sender = fas1SenderA ∨ input.sender = fas1SenderB) : Cut fragments := by
  obtain ⟨hadmissible, rfl⟩ := fragmentPacket_ok h
  refine ⟨fun hempty => ?_, fun unit hunit => ?_⟩
  · have hcount := hadmissible.count.1
    rw [List.map_eq_nil_iff, List.range_eq_nil] at hempty
    omega
  · obtain ⟨index, hindex, rfl⟩ := List.mem_map.mp hunit
    exact (fragmentAt_fits hadmissible hsender (List.mem_range.mp hindex)).wellFormed

/-- The sender of a unit is A or B. -/
theorem senderFlag_cases (role : AcousticRole) :
    senderFlag role = fas1SenderA ∨ senderFlag role = fas1SenderB := by
  cases role
  · exact .inl rfl
  · exact .inr rfl

/-- A packet that was cut joins its queue. -/
theorem acceptPacket_stays (sessionId : ℕ) {pending : PendingPacket} (hcut : Cut pending.fragments)
    (s : AcousticSession) : Stays role s (acceptPacket sessionId pending s) := by
  refine ⟨rfl, rfl, rfl, rfl, .inl rfl, .inl, fun other hmem => ?_⟩
  rcases mem_pendingPackets.mp hmem with hactive | hqueued
  · exact .inl ⟨other, mem_pendingPackets.mpr (.inl hactive), rfl⟩
  · rcases mem_pushPacket hqueued with rfl | hqueued
    · exact .inr hcut
    · exact .inl ⟨other, mem_pendingPackets.mpr (.inr hqueued), rfl⟩

/-- A new packet is cut before it is queued, and the turn that may follow stays in the session. -/
theorem queueNewPacket_stays (readings : Readings) (sessionId : ℕ) (packet : Bytes)
    (trafficClass : AcousticTrafficClass) (s : AcousticSession) :
    Stays role s (left (do
      let (_, s) ← queueNewPacket options readings sessionId packet trafficClass s
      return s)) := by
  unfold queueNewPacket outboundSettings
  dsimp only
  split
  · exact stays_same rfl rfl rfl
  · rw [ok_bind]
    cases hfragments : fragmentPacket _ with
    | error message => exact stays_same rfl rfl rfl
    | ok fragments =>
      simp only [attempt, ok_bind]
      generalize hpending : acceptPacket sessionId _ _ = t
      have hpushed : Stays role s t := by
        have hcut := cut_of_fragmentPacket hfragments (senderFlag_cases options.role)
        rw [← hpending]
        exact (acceptPacket_stays sessionId hcut _).after rfl rfl rfl
      have hdrive : Stays role t (left (driveTurn options readings t)) := driveTurn_stays _ _
      cases hturn : driveTurn options readings t with
      | error f =>
        rw [hturn] at hdrive
        exact hpushed.trans hdrive
      | ok u =>
        rw [hturn] at hdrive
        exact hpushed.trans hdrive

/-- Offering a packet refuses it, finds it among those pending, or queues it newly cut. -/
theorem enqueuePacket_stays (readings : Readings) (packet : Bytes)
    (trafficClass : AcousticTrafficClass) (s : AcousticSession) :
    Stays role s (left (do
      let (_, s) ← enqueuePacket options readings packet trafficClass s
      return s)) := by
  have hexpired : Stays role s (expireWork options readings.now s) := expireWork_stays _ _
  unfold enqueuePacket
  generalize expireWork options readings.now s = t at hexpired ⊢
  dsimp only
  refine hexpired.trans ?_
  split
  · exact Stays.refl role t
  · split
    · exact Stays.refl role t
    · split
      · exact Stays.refl role t
      · split
        · exact stays_same rfl rfl rfl
        · split
          · exact Stays.refl role t
          · exact queueNewPacket_stays readings _ packet trafficClass t

end Methods

/-- The session is left for a rest in an epoch. -/
structure Leaves (role : AcousticRole) (newEpoch : ℕ) (s t : AcousticSession) : Prop where
  /-- The epoch. -/
  epoch : t.link.epoch = newEpoch
  /-- A new generation. -/
  generation : t.link.generation = s.link.generation + 1
  /-- No identifier. -/
  sessionId : t.link.sessionId = none
  /-- The session is among those left. -/
  retired : t.link.retiredSessionIds = (resetLink newEpoch s.link).retiredSessionIds
  /-- It rests. -/
  state : t.state = restState role
  /-- Its packets are given up. -/
  packets : pendingPackets t = []

/-- A session at rest is given an identifier. -/
structure Takes (role : AcousticRole) (s t : AcousticSession) : Prop where
  /-- It rests. -/
  rest : s.state = restState role
  /-- The same epoch. -/
  epoch : t.link.epoch = s.link.epoch
  /-- The same generation. -/
  generation : t.link.generation = s.link.generation
  /-- An identifier in range, and for B none of a session left. -/
  sessionId : ∃ id, t.link.sessionId = some id ∧ 1 ≤ id ∧ id ≤ uint64Max ∧
    (role = .b → id ∉ s.link.retiredSessionIds)
  /-- The same sessions left. -/
  retired : t.link.retiredSessionIds = s.link.retiredSessionIds
  /-- It does not rest any more. -/
  state : t.state ≠ restState role
  /-- It is not ready yet. -/
  ready : t.state ≠ .ready
  /-- The same packets. -/
  packets : pendingPackets t = pendingPackets s

/-- A session may be left, then one may be taken up, and nothing else happens. -/
def Change (role : AcousticRole) (epoch : ℕ) (s t : AcousticSession) : Prop :=
  ∃ u v, (u = s ∨ Leaves role epoch s u) ∧ (v = u ∨ Takes role u v) ∧ Stays role v t

section Changes

variable {epoch : ℕ}

/-- To stay in the session is one of the changes that are allowed. -/
theorem Stays.change {role : AcousticRole} (h : Stays role s t) : Change role epoch s t :=
  ⟨s, s, .inl rfl, .inl rfl, h⟩

/-- A change after which the session is stayed in is a change of the same kind. -/
theorem Change.stays {role : AcousticRole} (h : Change role epoch s t) (h' : Stays role t u) :
    Change role epoch s u := by
  obtain ⟨v, w, hleave, htake, hstay⟩ := h
  exact ⟨v, w, hleave, htake, hstay.trans h'⟩

/-- A method that is entered after a change that touches no packet. -/
theorem Change.after {role : AcousticRole} (h : Change role epoch t u) (hlink : t.link = s.link)
    (hstate : t.state = s.state) (hpackets : pendingPackets t = pendingPackets s) :
    Change role epoch s u := by
  obtain ⟨v, w, hleave, htake, hstay⟩ := h
  rcases hleave with rfl | hleave
  · rcases htake with rfl | htake
    · exact (hstay.after hlink hstate hpackets).change
    · refine ⟨s, w, .inl rfl, .inr ?_, hstay⟩
      refine ⟨hstate.symm.trans htake.rest, ?_, ?_, ?_, ?_, htake.state, htake.ready,
        htake.packets.trans hpackets⟩
      · rw [htake.epoch, hlink]
      · rw [htake.generation, hlink]
      · rw [← hlink]
        exact htake.sessionId
      · rw [htake.retired, hlink]
  · refine ⟨v, w, .inr ⟨hleave.epoch, ?_, hleave.sessionId, ?_, hleave.state, hleave.packets⟩,
      htake, hstay⟩
    · rw [hleave.generation, hlink]
    · rw [hleave.retired, hlink]

/-- The same, if the epoch is that of the session. -/
theorem Change.enter {role : AcousticRole} (h : Change role t.link.epoch t u)
    (hlink : t.link = s.link) (hstate : t.state = s.state)
    (hpackets : pendingPackets t = pendingPackets s) : Change role s.link.epoch s u := by
  rw [hlink] at h
  exact h.after hlink hstate hpackets

/-- A method that touches neither the link nor the state nor the pending packets changes nothing
here. -/
theorem change_same {role : AcousticRole} (hlink : t.link = s.link) (hstate : t.state = s.state)
    (hpackets : pendingPackets t = pendingPackets s) : Change role epoch s t :=
  (stays_same hlink hstate hpackets).change

theorem reset_leaves (epoch : ℕ) (s : AcousticSession) :
    Leaves options.role epoch s (reset options epoch s) := ⟨rfl, rfl, rfl, rfl, rfl, rfl⟩

/-- A reset takes no session up. -/
theorem reset_change (epoch : ℕ) (s : AcousticSession) :
    Change options.role epoch s (reset options epoch s) :=
  ⟨_, _, .inr (reset_leaves epoch s), .inl rfl, Stays.refl _ _⟩

/-- What is taken up after a reset. -/
theorem change_of_reset (h : ∃ v, (v = reset options epoch s ∨
      Takes options.role (reset options epoch s) v) ∧ Stays options.role v t) :
    Change options.role epoch s t := by
  obtain ⟨v, htake, hstay⟩ := h
  exact ⟨_, v, .inr (reset_leaves epoch s), htake, hstay⟩

/-- The identifier made of a nonce is a positive word, so it is never the one of no session. -/
theorem toSessionId_bounds (nonce : Bytes) :
    1 ≤ toSessionId nonce ∧ toSessionId nonce ≤ uint64Max := by
  have hlow := wordAt_lt nonce 0 8
  have hhigh := wordAt_lt nonce 8 8
  have hxor : wordAt nonce 0 8 ^^^ wordAt nonce 8 8 < 2 ^ 64 := Nat.xor_lt_two_pow hlow hhigh
  unfold toSessionId
  dsimp only
  split
  · decide
  · unfold uint64Max
    omega

/-- Beginning takes a session up, or nothing happens. -/
theorem start_takes (readings : Readings) (s : AcousticSession) :
    ∃ v, (v = s ∨ Takes options.role s v) ∧
      Stays options.role v (left (start options readings s)) := by
  unfold start
  split
  · exact ⟨s, .inl rfl, Stays.refl _ s⟩
  · next h =>
    simp only [not_or, not_not] at h
    obtain ⟨hrole, hidle⟩ := h
    split
    · exact ⟨s, .inl rfl, Stays.refl _ s⟩
    · have hrest : restState options.role = .idle := by
        rw [hrole]
        rfl
      obtain ⟨hlow, hhigh⟩ := toSessionId_bounds readings.nonce
      refine ⟨{ s with
        state := .helloSent
        link.localNonce := some readings.nonce
        link.sessionId := some (toSessionId readings.nonce)
        io.started := s.io.started ++ [(toSessionId readings.nonce, readings.nonce)] }, .inr ?_, ?_⟩
      · refine ⟨by rw [hidle, hrest], rfl, rfl, ⟨_, rfl, hlow, hhigh, fun hb => ?_⟩, rfl, ?_, ?_,
          rfl⟩
        · rw [hrole] at hb
          cases hb
        · exact not_rest options.role .helloSent (by decide)
        · exact fun h => (by cases h)
      · refine stays_attempt (fun body _ => ?_)
        exact stays_bind (send_stays _ _ _ _) (fun _ _ => stays_same rfl rfl rfl)

/-- Beginning takes up the session of the own nonce from rest, or nothing happens. -/
theorem start_change (readings : Readings) (s : AcousticSession) :
    Change options.role epoch s (left (start options readings s)) := by
  have htakes : ∃ v, (v = s ∨ Takes options.role s v) ∧
      Stays options.role v (left (start options readings s)) := start_takes readings s
  obtain ⟨v, htake, hstay⟩ := htakes
  exact ⟨s, v, .inl rfl, htake, hstay⟩

/-- The identifier in a handshake is a positive word. -/
theorem decodeHandshake_sessionId {input : Bytes} {value : Handshake} {id : ℕ}
    (h : decodeHandshake input = .ok value) (hid : value.sessionId = some id) :
    1 ≤ id ∧ id ≤ uint64Max := by
  have hread : readHandshake input = some value := by
    unfold decodeHandshake at h
    cases hvalue : readHandshake input with
    | none =>
      rw [hvalue] at h
      cases h
    | some other =>
      rw [hvalue] at h
      cases h
      rfl
  have hfound : ∃ rest, readSessionId rest = some value.sessionId := by
    unfold readHandshake at hread
    obtain ⟨⟨_, _⟩, -, hread⟩ := Option.bind_eq_some_iff.mp hread
    dsimp only at hread
    split at hread
    · cases hread
    obtain ⟨⟨_, _⟩, -, hread⟩ := Option.bind_eq_some_iff.mp hread
    obtain ⟨_, -, hread⟩ := Option.bind_eq_some_iff.mp hread
    obtain ⟨⟨_, _⟩, -, hread⟩ := Option.bind_eq_some_iff.mp hread
    obtain ⟨⟨_, _⟩, -, hread⟩ := Option.bind_eq_some_iff.mp hread
    obtain ⟨⟨_, _⟩, -, hread⟩ := Option.bind_eq_some_iff.mp hread
    obtain ⟨⟨_, _⟩, -, hread⟩ := Option.bind_eq_some_iff.mp hread
    dsimp only at hread
    split at hread
    · cases hread
    obtain ⟨⟨_, _⟩, -, hread⟩ := Option.bind_eq_some_iff.mp hread
    dsimp only at hread
    split at hread
    · cases hread
    obtain ⟨⟨_, rest⟩, -, hread⟩ := Option.bind_eq_some_iff.mp hread
    obtain ⟨sessionId, hsession, hread⟩ := Option.bind_eq_some_iff.mp hread
    dsimp only at hread
    split at hread
    · cases hread
    · cases hread
      exact ⟨rest, hsession⟩
  obtain ⟨rest, hrest⟩ := hfound
  rw [hid] at hrest
  cases rest with
  | nil => cases hrest
  | cons byte rest =>
    unfold readSessionId at hrest
    simp only [readByte, Option.bind_eq_bind, Option.bind_some] at hrest
    split at hrest
    · split at hrest
      · cases hrest
      · next hvalid =>
        cases hrest
        have hlt := readWord_lt rest
        have hlength : rest.length = 8 := by
          by_contra hne
          exact hvalid (.inl hne)
        rw [hlength] at hlt
        have hmax : readWord rest ≤ uint64Max := Nat.le_of_lt_succ hlt
        omega
    · split at hrest <;> cases hrest

/-- A HELLO is answered from rest. -/
theorem answerHello_takes (readings : Readings) (sessionId : ℕ) (peerNonce : Bytes)
    (s : AcousticSession) (hrole : options.role = .b) (hrest : s.state = .listening)
    (hbounds : 1 ≤ sessionId ∧ sessionId ≤ uint64Max)
    (hfresh : sessionId ∉ s.link.retiredSessionIds) :
    ∃ v, (v = s ∨ Takes options.role s v) ∧
      Stays options.role v (left (answerHello options readings sessionId peerNonce s)) := by
  unfold answerHello
  dsimp only
  split
  · exact ⟨s, .inl rfl, stays_same rfl rfl rfl⟩
  · have hlistening : restState options.role = .listening := by
      rw [hrole]
      rfl
    refine ⟨{ clearHandshakeRetry s with
      state := .helloAckSent
      link.sessionId := some sessionId
      link.peerNonce := some peerNonce
      link.localNonce := some readings.nonce }, .inr ?_, ?_⟩
    · refine ⟨by rw [hrest, hlistening], rfl, rfl,
        ⟨_, rfl, hbounds.1, hbounds.2, fun _ => hfresh⟩, rfl, ?_, ?_, rfl⟩
      · exact not_rest options.role .helloAckSent (by decide)
      · exact fun h => (by cases h)
    · refine stays_attempt (fun body _ => ?_)
      exact stays_bind (send_stays _ _ _ _) (fun _ _ => stays_same rfl rfl rfl)

/-- Only identifiers are retired that were left. -/
theorem mem_resetLink {id : ℕ} {link : Link} (h : id ∈ (resetLink epoch link).retiredSessionIds) :
    id ∈ link.retiredSessionIds ∨ link.sessionId = some id := by
  unfold resetLink at h
  dsimp only at h
  split at h
  · cases h
  · split at h
    · exact .inl h
    · next sessionId hsession =>
      have hmem := List.mem_of_mem_drop h
      split at hmem
      · exact .inl hmem
      · rcases List.mem_append.mp hmem with hmem | hmem
        · exact .inl hmem
        · rw [List.mem_singleton.mp hmem]
          exact .inr hsession

/-- A HELLO resets B when it is bound to another session, and B then takes the new one up. Leaving
and taking are separate parts of one change. -/
theorem onHello_change (readings : Readings) (headerSessionId : ℕ) (body : Bytes)
    (s : AcousticSession) :
    Change options.role s.link.epoch s
      (left (onHello options readings headerSessionId body s)) := by
  unfold onHello
  split
  · exact (Stays.refl _ s).change
  · next h =>
    simp only [not_or, not_not] at h
    cases hdecoded : decodeHandshake body with
    | error message => exact (Stays.refl _ s).change
    | ok hello =>
      simp only [attempt, ok_bind]
      split
      · exact (Stays.refl _ s).change
      · next sessionId hsession =>
        have hbounds := decodeHandshake_sessionId hdecoded hsession
        split
        · exact (Stays.refl _ s).change
        · next hbound =>
          simp only [not_or] at hbound
          obtain ⟨-, hfresh⟩ := hbound
          split
          · next hlistening =>
            obtain ⟨v, htake, hstay⟩ := answerHello_takes readings sessionId hello.nonce s h.1
              hlistening hbounds hfresh
            exact ⟨s, v, .inl rfl, htake, hstay⟩
          · split
            · exact (Stays.refl _ s).change
            · next hother =>
              have hlistening : (reset options s.link.epoch s).state = .listening := by
                change restState options.role = .listening
                rw [h.1]
                rfl
              have hunused : sessionId ∉ (reset options s.link.epoch s).link.retiredSessionIds := by
                intro hmem
                rcases mem_resetLink hmem with hmem | hmem
                · exact hfresh hmem
                · exact hother hmem
              exact change_of_reset (answerHello_takes readings sessionId hello.nonce _ h.1
                hlistening hbounds hunused)

/-- Beginning again after a reset leaves one session and takes another up. -/
theorem restart_change (readings : Readings) (epoch : ℕ) (sessionId : Option ℕ)
    (s : AcousticSession) :
    Change options.role s.link.epoch s (left (restart options readings epoch sessionId s)) := by
  unfold restart
  split
  · exact (Stays.refl _ s).change
  · next h =>
    simp only [not_or, not_not] at h
    rw [h.1]
    split
    · exact change_of_reset (start_takes readings _)
    · exact reset_change _ s

/-- The restart of a session is a reset in the same epoch and a new beginning. -/
theorem restartSession_change (readings : Readings) (s : AcousticSession) :
    Change options.role s.link.epoch s (left (restartSession options readings s)) := by
  unfold restartSession
  split
  · next sessionId _ _ =>
    dsimp only
    cases ht : send options .reset (some sessionId) [] s with
    | error f =>
      rw [error_bind, left_error, send_error options ht]
      exact change_same rfl rfl rfl
    | ok t =>
      obtain ⟨id, -, -, rfl⟩ := send_ok options ht
      rw [ok_bind]
      split
      · exact change_same rfl rfl rfl
      · exact (restart_change _ _ _ _).enter rfl rfl rfl
  · exact restart_change _ _ _ _

/-- A recovery stays in the session, and restarts it once the attempts are used up. -/
theorem beginRecovery_change (readings : Readings) (s : AcousticSession) :
    Change options.role s.link.epoch s (left (beginRecovery options readings s)) := by
  unfold beginRecovery
  split
  · exact (Stays.refl _ s).change
  · split
    · exact (Stays.refl _ s).change
    · split
      · exact restartSession_change _ s
      · refine Stays.change ?_
        dsimp only
        have hrecovering : Stays options.role s { s with
            state := .recovering
            reason := none
            delivery.recoveryAttempts := s.delivery.recoveryAttempts + 1
            counters.retries := s.counters.retries + 1 } :=
          stays_away .recovering rfl rfl rfl (by decide)
        refine hrecovering.trans ?_
        split
        · refine stays_bind (send_stays _ _ _ _) (fun u _ => ?_)
          split
          · exact stays_same rfl rfl rfl
          · exact armRecoveryTimeout_stays _ _ _
        · exact armRecoveryTimeout_stays _ _ _

/-- A RESET of the peer leaves the session it names, in the same epoch. -/
theorem onReset_change (readings : Readings) (sessionId : ℕ) (s : AcousticSession) :
    Change options.role s.link.epoch s (left (onReset options readings sessionId s)) := by
  unfold onReset
  split
  · exact (Stays.refl _ s).change
  · split
    · exact change_of_reset (start_takes readings _)
    · exact reset_change _ s

/-- A unit that is let through changes at most one session for another in its epoch. -/
theorem handleUnit_change (readings : Readings) (unit : Fas1Unit) (s : AcousticSession) :
    Change options.role s.link.epoch s (left (handleUnit options readings unit s)) := by
  unfold handleUnit
  cases unit.type with
  | hello => exact onHello_change _ _ _ s
  | helloAck => exact (onHelloAck_stays _ _ s).change
  | caps => exact (onCaps_stays _ _ s).change
  | probe => exact (onProbe_stays _ _ _ s).change
  | report => exact (onReport_stays _ _ s).change
  | commit => exact (onCommit_stays _ _ s).change
  | commitAck => exact (onCommitAck_stays _ _ s).change
  | heartbeat => exact (onHeartbeat_stays _ _ s).change
  | data => exact (onData_stays _ _ s).change
  | turnEnd => exact (onTurnEnd_stays _ s).change
  | ack => exact (onAck_stays _ _ _ s).change
  | reset => exact onReset_change _ _ s

/-- Bytes that arrive are refused before they are handled or handled as one unit. -/
theorem receive_change (readings : Readings) (raw : Bytes) (s : AcousticSession) :
    Change options.role s.link.epoch s (receive options readings raw s) := by
  unfold receive
  split
  · next unit _ =>
    have hhandled : Change options.role s.link.epoch s
        (left (handleUnit options readings unit s)) :=
      handleUnit_change readings unit s
    unfold deliverUnit
    split
    · unfold receiveUnit
      split
      · exact (Stays.refl _ s).change
      · split
        · next t heq =>
          rw [heq] at hhandled
          exact hhandled.stays (noteLiveness_stays unit t)
        · next heq =>
          rw [heq] at hhandled
          exact hhandled
    · exact (Stays.refl _ s).change
  · exact (Stays.refl _ s).change

/-- The task of the delivery timer uses the turn, retries or recovers. -/
theorem runDeliveryTask_change (readings : Readings) (task : DeliveryTask) (s : AcousticSession) :
    Change options.role s.link.epoch s (left (runDeliveryTask options readings task s)) := by
  unfold runDeliveryTask
  split
  · exact (driveTurn_stays _ s).change
  · exact (onAckTimeout_stays _ _ _ s).change
  · exact beginRecovery_change _ s
  · exact (markHeartbeatMissed_stays s).change
  · split
    · exact (send_stays _ _ _ s).change
    · exact (Stays.refl _ s).change

/-- The delivery timer runs the task it was set for, if it is still the current one. -/
theorem fireDelivery_change (readings : Readings) (s : AcousticSession) :
    Change options.role s.link.epoch s (left (fireDelivery options readings s)) := by
  unfold fireDelivery
  split
  · exact (Stays.refl _ s).change
  · dsimp only
    split
    · exact change_same rfl rfl rfl
    · exact (runDeliveryTask_change _ _ _).enter rfl rfl rfl

/-- What waited for a send goes on where it stands, in its own session. -/
theorem runSite_change (readings : Readings) (rejected : Bool) (completion : Completion)
    (s : AcousticSession) :
    Change options.role s.link.epoch s (left (runSite options readings rejected completion s)) := by
  unfold runSite
  split
  · split
    · split
      · exact (fail_stays _ s).change
      · exact (armHandshakeRetry_stays s).change
    · exact (Stays.refl _ s).change
  · split
    · exact (fail_stays _ s).change
    · exact (armProbeRetry_stays _ _ s).change
  · split
    · exact (fail_stays _ s).change
    · exact (scheduleRetry_stays _ _ s).change
  · split
    · exact (fail_stays _ s).change
    · exact (armCommitRetry_stays s).change
  · split
    · exact (degrade_stays _ s).change
    · exact (armAckTimeout_stays _ _ _ _ s).change
  · split
    · exact restartSession_change _ s
    · exact (armRecoveryTimeout_stays _ _ s).change
  · exact restart_change _ _ _ s

/-- A send that ends, in either way, lets one waiting site go on. -/
theorem settleCompletion_change (readings : Readings) (index : ℕ) (rejected : Bool)
    (s : AcousticSession) :
    Change options.role s.link.epoch s
      (left (settleCompletion options readings index rejected s)) := by
  unfold settleCompletion
  split
  · exact (Stays.refl _ s).change
  · exact (runSite_change _ _ _ _).enter rfl rfl rfl

/-- Every timer stays in the session, except for the delivery timer that may restart it. -/
theorem fire_change (readings : Readings) (name : TimerName) (s : AcousticSession) :
    Change options.role s.link.epoch s (left (fire options readings name s)) := by
  cases name with
  | timer => exact (fireTimer_stays s).change
  | handshakeTimer => exact (fireHandshake_stays s).change
  | probeTimer => exact (fireProbe_stays s).change
  | strayProbeTimer index => exact (fireStrayProbe_stays index s).change
  | commitTimer => exact (fireCommit_stays s).change
  | deliveryTimer => exact fireDelivery_change readings s
  | heartbeatTimer => exact (fireHeartbeat_stays readings s).change
  | heartbeatDeadline => exact (fireHeartbeatDeadline_stays s).change

/-- A step leaves at most one session and takes at most one up. The epoch is the old one, or the
one of the reset the step is. -/
theorem step_change (options : AcousticSessionOptions) (s : AcousticSession)
    (event : Readings × Event) :
    ∃ epoch, (epoch = s.link.epoch ∨ event.2 = .act (.reset epoch)) ∧
      Change options.role epoch s (step options s event) := by
  obtain ⟨readings, event⟩ := event
  cases event with
  | receive raw => exact ⟨_, .inl rfl, receive_change readings raw s⟩
  | act action =>
    cases action with
    | reset epoch =>
      change ∃ e, _ ∧ Change options.role e s
        (if validInteger epoch 0 uint32Max then reset options epoch s else s)
      split
      · exact ⟨epoch, .inr rfl, reset_change epoch s⟩
      · exact ⟨epoch, .inr rfl, (Stays.refl _ s).change⟩
    | start => exact ⟨_, .inl rfl, start_change readings s⟩
    | dispose => exact ⟨_, .inl rfl, (reset_change _ s).stays (stays_same rfl rfl rfl)⟩
    | heartbeat => exact ⟨_, .inl rfl, (heartbeat_stays readings s).change⟩
    | markHeartbeatMissed => exact ⟨_, .inl rfl, (markHeartbeatMissed_stays s).change⟩
    | enqueuePacket packet trafficClass =>
      exact ⟨_, .inl rfl, (enqueuePacket_stays readings packet trafficClass s).change⟩
    | fire name => exact ⟨_, .inl rfl, fire_change readings name s⟩
    | settle index rejected =>
      exact ⟨_, .inl rfl, settleCompletion_change readings index rejected s⟩
    | work rejected => exact ⟨_, .inl rfl, (stepWork_stays rejected s).change⟩
    | orphanWork index rejected => exact ⟨_, .inl rfl, (stepOrphan_stays index rejected s).change⟩

end Changes

end Fipwave.LinkFrames
