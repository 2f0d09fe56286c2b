import Fipwave.LinkFrames

/-!
# Packets are accepted from the owner alone

No timer, no promise and no unit of the peer makes a session accept a packet:
what a session has accepted grows only when its owner offers a packet, by that
packet at most.
-/

namespace Fipwave.AcceptedPackets

open ByteWords ThrowingMethod AcousticProtocol PacketFragments AcousticHandshake AcousticState
  AcousticMethods AcousticNegotiation AcousticDelivery AcousticSession

variable {options : AcousticSessionOptions} {s t : AcousticSession}

/-- The second session has accepted the packets of the first one and no new one. -/
def NoNew (s t : AcousticSession) : Prop := t.io.accepted = s.io.accepted

theorem NoNew.trans {u : AcousticSession} (h : NoNew s t) (h' : NoNew t u) : NoNew s u :=
  Eq.trans h' h

/-- A method accepts nothing if neither of its parts does, whichever of them throws. -/
theorem noNew_bind {m : Outcome} {g : AcousticSession → Outcome} (hfirst : NoNew s (left m))
    (hsecond : ∀ t, NoNew t (left (g t))) : NoNew s (left (m >>= g)) := by
  refine left_bind (P := fun t => NoNew s t) ?_ ?_
  · intro f hf
    rw [hf] at hfirst
    exact hfirst
  · intro t ht
    rw [ht] at hfirst
    exact hfirst.trans (hsecond t)

/-- What cannot be encoded throws in place; otherwise the method goes on. -/
theorem noNew_attempt {α : Type} {result : Except String α} {g : α → Outcome}
    (h : ∀ value, NoNew s (left (g value))) : NoNew s (left (attempt result s >>= g)) := by
  cases result with
  | error message => rfl
  | ok value => exact h value

section Negotiation

/-- A unit on the air is logged as sent and not as accepted. -/
theorem transmit_noNew (unit : Fas1Unit) (s : AcousticSession) :
    NoNew s (left (transmit unit s)) := by
  cases ht : transmit unit s with
  | error f =>
    rw [left_error, (transmit_error ht).2]
    rfl
  | ok t =>
    obtain ⟨-, rfl⟩ := transmit_ok ht
    rfl

/-- Sending a unit of the handshake or the turn accepts no packet. -/
theorem send_noNew (type : Fas1UnitType) (sessionId : Option ℕ) (body : Bytes)
    (s : AcousticSession) : NoNew s (left (send options type sessionId body s)) := by
  cases ht : send options type sessionId body s with
  | error f =>
    rw [left_error, send_error options ht]
    rfl
  | ok t =>
    obtain ⟨id, -, -, rfl⟩ := send_ok options ht
    rfl

/-- A degraded session accepts nothing. -/
theorem degrade_noNew (reason : String) (s : AcousticSession) :
    NoNew s (degrade options reason s) := by
  unfold degrade
  split <;> rfl

/-- A missed heartbeat degrades the session at most. -/
theorem markHeartbeatMissed_noNew (s : AcousticSession) :
    NoNew s (markHeartbeatMissed options s) := by
  unfold markHeartbeatMissed
  split <;> rfl

/-- Arming the timers of the heartbeat is no acceptance. -/
theorem armHeartbeatTimers_noNew (s : AcousticSession) :
    NoNew s (armHeartbeatTimers options s) := by
  unfold armHeartbeatTimers scheduleHeartbeat
  split
  · rfl
  · split <;> rfl

/-- Arming the retry of the handshake is no acceptance. -/
theorem armHandshakeRetry_noNew (s : AcousticSession) : NoNew s (armHandshakeRetry s) := by
  unfold armHandshakeRetry
  split <;> rfl

/-- Arming the retry of the COMMIT is no acceptance. -/
theorem armCommitRetry_noNew (s : AcousticSession) : NoNew s (armCommitRetry options s) := by
  unfold armCommitRetry
  split <;> rfl

/-- Arming the deadline of the handshake is no acceptance. -/
theorem armDeadline_noNew (s : AcousticSession) : NoNew s (armDeadline s) := by
  unfold armDeadline
  split <;> rfl

/-- Tuning the codec is no acceptance. -/
theorem applyOutboundCandidate_noNew (s : AcousticSession) :
    NoNew s (applyOutboundCandidate options s) := by
  unfold applyOutboundCandidate
  split <;> rfl

/-- A session that begins has a handshake before it, and no packet. -/
theorem start_noNew (readings : Readings) (s : AcousticSession) :
    NoNew s (left (start options readings s)) := by
  unfold start
  split
  · rfl
  · split
    · rfl
    · refine noNew_attempt (fun body => ?_)
      exact noNew_bind (send_noNew _ _ _ _) (fun _ => rfl)

/-- B answers a HELLO with a handshake unit alone. -/
theorem answerHello_noNew (readings : Readings) (sessionId : ℕ) (peerNonce : Bytes)
    (s : AcousticSession) :
    NoNew s (left (answerHello options readings sessionId peerNonce s)) := by
  unfold answerHello
  dsimp only
  split
  · rfl
  · refine noNew_attempt (fun body => ?_)
    exact noNew_bind (send_noNew _ _ _ _) (fun _ => rfl)

/-- A HELLO may reset the session and begin a new one, which accepts nothing by itself. -/
theorem onHello_noNew (readings : Readings) (headerSessionId : ℕ) (body : Bytes)
    (s : AcousticSession) : NoNew s (left (onHello options readings headerSessionId body s)) := by
  unfold onHello
  split
  · rfl
  · refine noNew_attempt (fun hello => ?_)
    split
    · rfl
    · split
      · rfl
      · split
        · exact answerHello_noNew _ _ _ _
        · split
          · rfl
          · exact answerHello_noNew _ _ _ _

/-- A HELLO_ACK moves the handshake on and accepts nothing. -/
theorem onHelloAck_noNew (sessionId : ℕ) (body : Bytes) (s : AcousticSession) :
    NoNew s (left (onHelloAck options sessionId body s)) := by
  unfold onHelloAck
  split
  · rfl
  · refine noNew_attempt (fun ack => ?_)
    dsimp only
    split
    · rfl
    · exact noNew_bind (send_noNew _ _ _ _) (fun _ => rfl)

/-- A probe is no packet of the caller. -/
theorem driveProbe_noNew (direction : Direction) (s : AcousticSession) :
    NoNew s (left (driveProbe options direction s)) := by
  unfold driveProbe
  split
  · rfl
  · split
    · rfl
    · dsimp only
      split
      · rfl
      · refine noNew_attempt (fun probe => ?_)
        exact noNew_bind (send_noNew _ _ _ _) (fun _ => rfl)

/-- The capabilities of the peer begin the probes and accept nothing. -/
theorem onCaps_noNew (sessionId : ℕ) (body : Bytes) (s : AcousticSession) :
    NoNew s (left (onCaps options sessionId body s)) := by
  have hcalibrating : NoNew s
      (armDeadline { clearHandshakeRetry s with state := .calibratingAToB }) := armDeadline_noNew _
  unfold onCaps
  split
  · rfl
  · split
    · exact hcalibrating.trans (send_noNew _ _ _ _)
    · split
      · exact send_noNew _ _ _ _
      · split
        · exact hcalibrating.trans (driveProbe_noNew _ _)
        · rfl

/-- The retry of a probe is a timer. -/
theorem scheduleRetry_noNew (direction : Direction) (ordinal : ℕ) (s : AcousticSession) :
    NoNew s (scheduleRetry options direction ordinal s) := by
  unfold scheduleRetry
  split <;> rfl

/-- The retry of a probe is armed where its direction is still being probed. -/
theorem armProbeRetry_noNew (direction : Direction) (ordinal : ℕ) (s : AcousticSession) :
    NoNew s (armProbeRetry options direction ordinal s) := scheduleRetry_noNew _ _ _

/-- A probe that is sent again was never accepted. -/
theorem retransmitProbe_noNew (direction : Direction) (ordinal : ℕ) (s : AcousticSession) :
    NoNew s (left (retransmitProbe options direction ordinal s)) := by
  unfold retransmitProbe
  split
  · refine noNew_attempt (fun probe => ?_)
    exact noNew_bind (send_noNew _ _ _ _) (fun _ => rfl)
  · rfl

/-- What follows the completion of a direction. -/
theorem completeDirection_noNew (direction : Direction) (s : AcousticSession)
    {g : Bool × AcousticSession → Outcome} (h : ∀ complete t, NoNew t (left (g (complete, t)))) :
    NoNew s (left (completeDirection options direction s >>= g)) := by
  unfold completeDirection
  split
  · exact h _ _
  · split
    · exact h true (fail _ s)
    · dsimp only
      split
      · split
        · rw [bind_assoc]
          exact noNew_bind (driveProbe_noNew _ _) (fun t => h true t)
        · exact h true _
      · split
        · exact h true _
        · exact h true _

/-- A probe of the peer is measured and reported, and nothing is accepted. -/
theorem onProbe_noNew (readings : Readings) (sessionId : ℕ) (body : Bytes) (s : AcousticSession) :
    NoNew s (left (onProbe options readings sessionId body s)) := by
  unfold onProbe
  split
  · rfl
  · refine noNew_attempt (fun direction => ?_)
    dsimp only
    split
    · split
      · rfl
      · split
        · exact send_noNew _ _ _ _
        · rfl
    · split
      · rfl
      · refine noNew_attempt (fun probe => ?_)
        refine noNew_attempt (fun observation => ?_)
        refine noNew_bind (send_noNew _ _ _ _) (fun u => ?_)
        exact completeDirection_noNew direction u (fun _ _ => rfl)

/-- A report moves the calibration on and accepts nothing. -/
theorem onReport_noNew (sessionId : ℕ) (body : Bytes) (s : AcousticSession) :
    NoNew s (left (onReport options sessionId body s)) := by
  unfold onReport
  split
  · rfl
  · refine noNew_attempt (fun decoded => ?_)
    obtain ⟨probe, observation⟩ := decoded
    dsimp only
    split
    · rfl
    · refine completeDirection_noNew probe.direction _ (fun complete v => ?_)
      dsimp only
      split
      · rfl
      · exact driveProbe_noNew _ _

/-- Settings that are taken over are no packets. -/
theorem onCommit_noNew (sessionId : ℕ) (body : Bytes) (s : AcousticSession) :
    NoNew s (left (onCommit options sessionId body s)) := by
  unfold onCommit
  split
  · rfl
  · split
    · refine noNew_bind (send_noNew _ _ _ _) (fun u => ?_)
      split
      · exact send_noNew _ _ _ _
      · rfl
    · split <;> rfl

/-- Settings that were accepted by the peer are no packets. -/
theorem onCommitAck_noNew (sessionId : ℕ) (body : Bytes) (s : AcousticSession) :
    NoNew s (left (onCommitAck options sessionId body s)) := by
  unfold onCommitAck
  split
  · rfl
  · exact armCommitRetry_noNew _

/-- Work that throws accepts as little as the work itself. -/
theorem catchWork_noNew (stage : Option Stage) {m : Outcome} (h : NoNew s (left m)) :
    NoNew s (catchWork stage m).2 := by
  unfold catchWork
  split
  · exact h
  · exact h

/-- Beginning asynchronous work of the handshake accepts nothing. -/
theorem startJob_noNew (job : Job) (s : AcousticSession) : NoNew s (startJob options job s).2 := by
  unfold startJob
  split
  · split
    · rfl
    · split
      · rfl
      · exact applyOutboundCandidate_noNew _
  · split
    · rfl
    · split <;> rfl

/-- The COMMIT is sent without a packet. -/
theorem sendCommit_noNew (digest : Bytes) (s : AcousticSession) :
    NoNew s (sendCommit options digest s).2 := by
  have hsend : NoNew s (left (send options .commit s.link.sessionId digest
      { s with commitment.settingsDigest := some digest })) := send_noNew _ _ _ _
  unfold sendCommit
  split
  · next heq =>
    rw [heq] at hsend
    exact hsend
  · next heq =>
    rw [heq] at hsend
    exact hsend

/-- The COMMIT is answered without a packet. -/
theorem acknowledgeCommit_noNew (received digest : Bytes) (s : AcousticSession) :
    NoNew s (acknowledgeCommit options received digest s).2 := by
  unfold acknowledgeCommit
  split
  · rfl
  · refine catchWork_noNew none ?_
    have happlied : NoNew s (applyOutboundCandidate options
        { s with commitment.settingsDigest := some digest }) := applyOutboundCandidate_noNew _
    refine happlied.trans (noNew_bind (send_noNew _ _ _ _) (fun u => ?_))
    exact send_noNew _ _ _ _

/-- A job that goes on accepts nothing, wherever it waited. -/
theorem resumeJob_noNew (rejected : Bool) (stage : Stage) (s : AcousticSession) :
    NoNew s (resumeJob options rejected stage s).2 := by
  unfold resumeJob
  split
  · split
    · split
      · rfl
      · exact sendCommit_noNew _ s
    · rfl
  · split
    · rfl
    · exact armCommitRetry_noNew s
  · split
    · split
      · rfl
      · exact acknowledgeCommit_noNew _ _ s
    · rfl

/-- One link of a chain of work accepts nothing, also when it is rejected. -/
theorem stepChain_noNew (rejected : Bool) (chain : WorkChain) (s : AcousticSession) :
    NoNew s (stepChain options rejected chain s).2 := by
  unfold stepChain
  split
  · exact resumeJob_noNew _ _ s
  · split
    · rfl
    · exact startJob_noNew _ s

end Negotiation

section Delivery

/-- Stale packets were accepted before, and stay on the record. -/
theorem expireWork_noNew (now : ℕ) (s : AcousticSession) : NoNew s (expireWork options now s) := by
  have hactive : NoNew s (expireActive options now (expireQueues now s)) := by
    unfold expireActive
    split
    · rfl
    · split
      · exact degrade_noNew _ _
      · rfl
  unfold expireWork expireInbound
  dsimp only
  split
  · exact hactive
  · split <;> exact hactive

/-- A packet that becomes active was accepted before. -/
theorem activate_noNew (s : AcousticSession) : NoNew s (activate s) := by
  unfold activate
  split <;> rfl

/-- The timeout of an ACK is a timer. -/
theorem armAckTimeout_noNew (generation sessionId : ℕ) (fragments : List Fas1Unit) (attempt : ℕ)
    (s : AcousticSession) :
    NoNew s (armAckTimeout options generation sessionId fragments attempt s) := by
  unfold armAckTimeout
  split
  · rfl
  · split <;> rfl

/-- Closing a turn sends one unit and hands the token over. -/
theorem closeTurn_noNew (sessionId : ℕ) (s : AcousticSession) :
    NoNew s (left (closeTurn options sessionId s)) :=
  noNew_bind (send_noNew _ _ _ _) (fun _ => rfl)

/-- Putting several units on the air accepts nothing. -/
theorem transmitAll_noNew (units : List Fas1Unit) (s : AcousticSession) :
    NoNew s (left (units.foldlM (fun s unit => transmit unit s) s)) := by
  induction units generalizing s with
  | nil => rfl
  | cons unit units ih =>
    rw [List.foldlM_cons]
    exact noNew_bind (transmit_noNew unit s) ih

/-- A burst is of a packet that was accepted before. -/
theorem sendBurst_noNew (sessionId : ℕ) (pending : PendingPacket) (missing : List Fas1Unit)
    (s : AcousticSession) : NoNew s (left (sendBurst options sessionId pending missing s)) := by
  unfold sendBurst
  dsimp only
  refine noNew_bind (transmitAll_noNew missing _) (fun t => ?_)
  refine noNew_bind (send_noNew _ _ _ _) (fun u => ?_)
  split
  · rfl
  · exact armAckTimeout_noNew _ _ _ _ _

/-- Using the own turn sends what was accepted before. -/
theorem driveTurn_noNew (readings : Readings) (s : AcousticSession) :
    NoNew s (left (driveTurn options readings s)) := by
  have hexpired : NoNew s (expireWork options readings.now s) := expireWork_noNew _ _
  unfold driveTurn
  generalize expireWork options readings.now s = t at hexpired ⊢
  dsimp only
  refine hexpired.trans ?_
  split
  · rfl
  · split
    · rfl
    · have hactivated : NoNew t (activate (applyOutboundCandidate options t)) :=
        (applyOutboundCandidate_noNew t).trans (activate_noNew _)
      refine hactivated.trans ?_
      generalize activate (applyOutboundCandidate options t) = u
      split
      · split
        · exact noNew_bind (send_noNew _ _ _ _) (fun v => closeTurn_noNew _ _)
        · exact closeTurn_noNew _ _
      · split
        · exact degrade_noNew _ _
        · split
          · rfl
          · exact sendBurst_noNew _ _ _ _

/-- An ACK that does not come lets the turn be used again. -/
theorem onAckTimeout_noNew (readings : Readings) (packetId attempt : ℕ) (s : AcousticSession) :
    NoNew s (left (onAckTimeout options readings packetId attempt s)) := by
  unfold onAckTimeout
  split
  · rfl
  · split
    · rfl
    · exact driveTurn_noNew _ _

/-- A restart is a reset and a beginning, and neither accepts anything. -/
theorem restart_noNew (readings : Readings) (epoch : ℕ) (sessionId : Option ℕ)
    (s : AcousticSession) : NoNew s (left (restart options readings epoch sessionId s)) := by
  unfold restart
  split
  · rfl
  · split
    · exact start_noNew _ _
    · rfl

/-- The restart of a session goes on only if nothing else began one. -/
theorem restartSession_noNew (readings : Readings) (s : AcousticSession) :
    NoNew s (left (restartSession options readings s)) := by
  unfold restartSession
  split
  · refine noNew_bind (send_noNew _ _ _ _) (fun t => ?_)
    split
    · rfl
    · exact restart_noNew _ _ _ _
  · exact restart_noNew _ _ _ _

/-- The timeout of a recovery is a timer. -/
theorem armRecoveryTimeout_noNew (generation sessionId : ℕ) (s : AcousticSession) :
    NoNew s (armRecoveryTimeout options generation sessionId s) := by
  unfold armRecoveryTimeout
  split <;> rfl

/-- A recovery sends a RESET or restarts, and accepts nothing. -/
theorem beginRecovery_noNew (readings : Readings) (s : AcousticSession) :
    NoNew s (left (beginRecovery options readings s)) := by
  unfold beginRecovery
  split
  · rfl
  · split
    · rfl
    · split
      · exact restartSession_noNew _ s
      · dsimp only
        split
        · refine noNew_bind (send_noNew _ _ _ _) (fun u => ?_)
          split
          · rfl
          · exact armRecoveryTimeout_noNew _ _ _
        · exact armRecoveryTimeout_noNew _ _ _

/-- A RESET of the peer gives packets up and accepts none. -/
theorem onReset_noNew (readings : Readings) (sessionId : ℕ) (s : AcousticSession) :
    NoNew s (left (onReset options readings sessionId s)) := by
  unfold onReset
  split
  · rfl
  · split
    · exact start_noNew _ _
    · rfl

/-- A packet of the peer is delivered and not accepted. -/
theorem completeAssembly_noNew (now sessionId payloadBytes : ℕ) (unit : Fas1Unit)
    (inbound : InboundAssembly) (s : AcousticSession) :
    NoNew s (completeAssembly now sessionId payloadBytes unit inbound s) := by
  unfold completeAssembly
  split
  · rfl
  · split
    · rfl
    · split <;> rfl

/-- A fragment of the peer is stored and not accepted. -/
theorem storeFragment_noNew (now : ℕ) (unit : Fas1Unit) (s : AcousticSession) :
    NoNew s (storeFragment now unit s).2 := by
  unfold storeFragment
  dsimp only
  split <;> rfl

/-- Fragments of the peer concern what is delivered. -/
theorem onData_noNew (readings : Readings) (unit : Fas1Unit) (s : AcousticSession) :
    NoNew s (left (onData options readings unit s)) := by
  have hexpired : NoNew s (expireWork options readings.now s) := expireWork_noNew _ _
  unfold onData
  generalize expireWork options readings.now s = t at hexpired ⊢
  dsimp only
  refine hexpired.trans ?_
  split
  · rfl
  · split
    · rfl
    · split
      · rfl
      · unfold inboundPayloadBytes
        split
        · rfl
        · rw [ok_bind]
          split
          · rfl
          · exact (storeFragment_noNew readings.now unit t).trans
              (completeAssembly_noNew _ _ _ _ _ _)

/-- The end of the peer's turn is answered by an ACK at most. -/
theorem onTurnEnd_noNew (sessionId : ℕ) (s : AcousticSession) :
    NoNew s (left (onTurnEnd options sessionId s)) := by
  unfold onTurnEnd
  split
  · rfl
  · split
    · unfold sendAck
      split
      · rfl
      · exact transmit_noNew _ _
    · rfl

/-- An ACK concerns a packet that was accepted before. -/
theorem onAck_noNew (sessionId packetId bitmap : ℕ) (s : AcousticSession) :
    NoNew s (left (onAck options sessionId packetId bitmap s)) := by
  unfold onAck
  split
  · rfl
  · dsimp only
    split
    · rfl
    · split
      · rfl
      · split
        · exact closeTurn_noNew _ _
        · rfl

/-- A session that becomes ready has accepted nothing yet in doing so. -/
theorem markReady_noNew (readings : Readings) (s : AcousticSession) :
    NoNew s (markReady options readings s) := by
  have hclear : NoNew s (if options.role = .b then clearCommitRetry s else s) := by
    split <;> rfl
  unfold markReady
  exact hclear.trans (armHeartbeatTimers_noNew _)

/-- A heartbeat of the peer accepts nothing. -/
theorem onHeartbeat_noNew (readings : Readings) (sessionId : ℕ) (s : AcousticSession) :
    NoNew s (left (onHeartbeat options readings sessionId s)) := by
  have hturn : ∀ (back : Bool) (u : AcousticSession),
      NoNew u (if back then { u with delivery.turnOwner := some .a } else u) := by
    intro back u
    split <;> rfl
  unfold onHeartbeat
  split
  · rfl
  · have hready : NoNew s (markReady options readings s) := markReady_noNew readings s
    dsimp only
    refine hready.trans ?_
    split
    · refine noNew_bind ?_ (fun u => hturn _ u)
      unfold replyHeartbeat
      split
      · rfl
      · exact send_noNew _ _ _ _
    · exact hturn _ _

/-- A heartbeat of this end accepts nothing. -/
theorem heartbeat_noNew (readings : Readings) (s : AcousticSession) :
    NoNew s (left (heartbeat options readings s)) := by
  unfold heartbeat
  split
  · rfl
  · exact driveTurn_noNew _ _

end Delivery

section Steps

/-- A unit of the peer makes a session accept nothing. -/
theorem handleUnit_noNew (readings : Readings) (unit : Fas1Unit) (s : AcousticSession) :
    NoNew s (left (handleUnit options readings unit s)) := by
  unfold handleUnit
  cases unit.type with
  | hello => exact onHello_noNew _ _ _ s
  | helloAck => exact onHelloAck_noNew _ _ s
  | caps => exact onCaps_noNew _ _ s
  | probe => exact onProbe_noNew _ _ _ s
  | report => exact onReport_noNew _ _ s
  | commit => exact onCommit_noNew _ _ s
  | commitAck => exact onCommitAck_noNew _ _ s
  | heartbeat => exact onHeartbeat_noNew _ _ s
  | data => exact onData_noNew _ _ s
  | turnEnd => exact onTurnEnd_noNew _ s
  | ack => exact onAck_noNew _ _ _ s
  | reset => exact onReset_noNew _ _ s

/-- The last unit of the handshake is sent again without a packet. -/
theorem retransmitHandshake_noNew (s : AcousticSession) :
    NoNew s (left (retransmitHandshake options s)) := by
  unfold retransmitHandshake
  split
  · refine noNew_attempt (fun body => ?_)
    exact noNew_bind (send_noNew _ _ _ _) (fun _ => rfl)
  · refine noNew_attempt (fun body => ?_)
    exact noNew_bind (send_noNew _ _ _ _) (fun _ => rfl)
  · exact noNew_bind (send_noNew _ _ _ _) (fun _ => rfl)
  · rfl

/-- The task of the delivery timer sends what was accepted before. -/
theorem runDeliveryTask_noNew (readings : Readings) (task : DeliveryTask) (s : AcousticSession) :
    NoNew s (left (runDeliveryTask options readings task s)) := by
  unfold runDeliveryTask
  split
  · exact driveTurn_noNew _ s
  · exact onAckTimeout_noNew _ _ _ s
  · exact beginRecovery_noNew _ s
  · exact markHeartbeatMissed_noNew s
  · split
    · exact send_noNew _ _ _ s
    · rfl

/-- A timer accepts no packet, by cases on its name. What a timer sends are retries, heartbeats and
packets that were accepted before. -/
theorem fire_noNew (readings : Readings) (name : TimerName) (s : AcousticSession) :
    NoNew s (left (fire options readings name s)) := by
  cases name with
  | timer =>
    change NoNew s (fireTimer s)
    unfold fireTimer
    split
    · rfl
    · dsimp only
      split
      · exact armDeadline_noNew _
      · rfl
  | handshakeTimer =>
    change NoNew s (left (fireHandshake options s))
    unfold fireHandshake
    split
    · rfl
    · dsimp only
      split
      · rfl
      · exact retransmitHandshake_noNew _
  | probeTimer =>
    change NoNew s (left (fireProbe options s))
    unfold fireProbe
    split
    · rfl
    · exact retransmitProbe_noNew _ _ _
  | strayProbeTimer index =>
    change NoNew s (left (fireStrayProbe options index s))
    unfold fireStrayProbe
    split
    · rfl
    · exact retransmitProbe_noNew _ _ _
  | commitTimer =>
    change NoNew s (left (fireCommit options s))
    unfold fireCommit
    split
    · rfl
    · dsimp only
      split
      · rfl
      · split
        · rfl
        · exact noNew_bind (send_noNew _ _ _ _) (fun _ => rfl)
  | deliveryTimer =>
    change NoNew s (left (fireDelivery options readings s))
    unfold fireDelivery
    split
    · rfl
    · dsimp only
      split
      · rfl
      · exact runDeliveryTask_noNew _ _ _
  | heartbeatTimer =>
    change NoNew s (left (fireHeartbeat options readings s))
    unfold fireHeartbeat
    split
    · rfl
    · dsimp only
      split
      · rfl
      · refine noNew_bind (heartbeat_noNew _ _) (fun u => ?_)
        unfold scheduleHeartbeat
        split <;> rfl
  | heartbeatDeadline =>
    change NoNew s (fireHeartbeatDeadline options s)
    unfold fireHeartbeatDeadline
    split
    · rfl
    · dsimp only
      split
      · rfl
      · exact markHeartbeatMissed_noNew _

/-- What waited for a send goes on and accepts nothing. -/
theorem runSite_noNew (readings : Readings) (rejected : Bool) (completion : Completion)
    (s : AcousticSession) : NoNew s (left (runSite options readings rejected completion s)) := by
  unfold runSite
  split
  · split
    · split
      · rfl
      · exact armHandshakeRetry_noNew s
    · rfl
  · split
    · rfl
    · exact armProbeRetry_noNew _ _ s
  · split
    · rfl
    · exact scheduleRetry_noNew _ _ s
  · split
    · rfl
    · exact armCommitRetry_noNew s
  · split
    · exact degrade_noNew _ s
    · exact armAckTimeout_noNew _ _ _ _ s
  · split
    · exact restartSession_noNew _ s
    · exact armRecoveryTimeout_noNew _ _ s
  · exact restart_noNew _ _ _ s

/-- Of all actions only offering a packet makes a session accept one. -/
theorem act_noNew (readings : Readings) {action : Action}
    (h : ∀ packet trafficClass, action ≠ .enqueuePacket packet trafficClass)
    (s : AcousticSession) : NoNew s (act options readings action s) := by
  cases action with
  | start => exact start_noNew readings s
  | reset epoch =>
    change NoNew s (if validInteger epoch 0 uint32Max then reset options epoch s else s)
    split <;> rfl
  | dispose => rfl
  | heartbeat => exact heartbeat_noNew readings s
  | markHeartbeatMissed => exact markHeartbeatMissed_noNew s
  | enqueuePacket packet trafficClass => exact absurd rfl (h packet trafficClass)
  | fire name => exact fire_noNew readings name s
  | settle index rejected =>
    change NoNew s (left (settleCompletion options readings index rejected s))
    unfold settleCompletion
    split
    · rfl
    · exact runSite_noNew _ _ _ _
  | work rejected => exact stepChain_noNew rejected s.tasks.work s
  | orphanWork index rejected =>
    change NoNew s (stepOrphan options index rejected s)
    unfold stepOrphan
    split
    · rfl
    · exact stepChain_noNew rejected _ s

/-- A packet that is offered is accepted in the current session or not at all; no other one is.
Expiry runs first and keeps the session, so the identifier read afterwards is the one before. -/
theorem mem_accepted_enqueue (readings : Readings) (packet : Bytes)
    (trafficClass : AcousticTrafficClass) (s : AcousticSession) :
    ∀ a ∈ (act options readings (.enqueuePacket packet trafficClass) s).io.accepted,
      a ∈ s.io.accepted ∨ (a.packet = packet ∧ s.link.sessionId = some a.sessionId) := by
  have hstays : LinkFrames.Stays options.role s (expireWork options readings.now s) :=
    LinkFrames.expireWork_stays readings.now s
  have hsame := hstays.sessionId
  have hexpired : NoNew s (expireWork options readings.now s) := expireWork_noNew _ _
  have hstill : ∀ t : AcousticSession, NoNew s t →
      ∀ a ∈ t.io.accepted,
        a ∈ s.io.accepted ∨ (a.packet = packet ∧ s.link.sessionId = some a.sessionId) := by
    intro t ht a ha
    rw [ht] at ha
    exact .inl ha
  unfold act enqueuePacket
  generalize expireWork options readings.now s = t at hexpired hsame ⊢
  dsimp only
  split
  · exact hstill t hexpired
  · next sessionId hsession =>
    split
    · exact hstill t hexpired
    · split
      · exact hstill t hexpired
      · split
        · exact hstill t hexpired
        · split
          · exact hstill t hexpired
          · unfold queueNewPacket outboundSettings
            dsimp only
            split
            · exact hstill t hexpired
            · rw [ok_bind]
              cases hfragments : fragmentPacket _ with
              | error message => exact hstill t hexpired
              | ok fragments =>
                simp only [attempt, ok_bind]
                generalize hpending : acceptPacket _ _ _ = u
                have hpushed : ∀ a ∈ u.io.accepted, a ∈ s.io.accepted ∨
                    (a.packet = packet ∧ s.link.sessionId = some a.sessionId) := by
                  intro a ha
                  rw [← hpending] at ha
                  rcases List.mem_append.mp ha with ha | ha
                  · exact hstill t hexpired a ha
                  · rw [List.mem_singleton.mp ha]
                    exact .inr ⟨rfl, hsame.symm.trans hsession⟩
                have hdrive : NoNew u (left (driveTurn options readings u)) := driveTurn_noNew _ _
                cases hturn : driveTurn options readings u with
                | error f =>
                  rw [hturn] at hdrive
                  intro a ha
                  exact hpushed a (hdrive ▸ ha)
                | ok v =>
                  rw [hturn] at hdrive
                  intro a ha
                  exact hpushed a (hdrive ▸ ha)

end Steps

end Fipwave.AcceptedPackets
