import Fipwave.AcousticNegotiation

/-!
# Turns, packets and recovery

The owner of the turn token sends one burst of DATA fragments, a heartbeat or
nothing, and closes its turn with TURN_END. The passive end assembles
packets, acknowledges them by bitmap and takes the token when the turn
carried nothing to acknowledge. A silent peer leads to bounded recoveries and
then to a new session.
-/

namespace Fipwave.AcousticDelivery

open ByteWords ScriptIntegers ThrowingMethod AcousticProtocol SettingsCommitment PacketFragments
  AcousticHandshake AcousticState AcousticMethods AcousticNegotiation

variable (options : AcousticSessionOptions)

/-- Queued packets. -/
def queueLength (s : AcousticSession) : ℕ :=
  s.delivery.queues.control.length + s.delivery.queues.heartbeat.length +
    s.delivery.queues.ordinary.length

/-- Packets that have not expired. -/
def retained (now : ℕ) (items : List PendingPacket) : List PendingPacket :=
  items.filter (fun item => item.expiresAt ≥ now)

/-- Drop expired packets from the queues. -/
def expireQueues (now : ℕ) (s : AcousticSession) : AcousticSession :=
  let queues : Queues :=
    ⟨retained now s.delivery.queues.control, retained now s.delivery.queues.heartbeat,
      retained now s.delivery.queues.ordinary⟩
  { s with
    delivery.queues := queues
    counters.dropped := s.counters.dropped + (queueLength s -
      (queues.control.length + queues.heartbeat.length + queues.ordinary.length)) }

/-- Drop an expired active packet. -/
def expireActive (now : ℕ) (s : AcousticSession) : AcousticSession :=
  match s.delivery.active with
  | none => s
  | some active =>
    if active.expiresAt < now then
      degrade options "acoustic_packet_expired"
        { s with
          delivery.active := none
          delivery.awaitingAck := false
          counters.dropped := s.counters.dropped + 1 }
    else s

/-- Drop an expired assembly and expired delivered identifiers. -/
def expireInbound (now : ℕ) (s : AcousticSession) : AcousticSession :=
  let delivered := s.delivery.delivered.filter (fun entry => entry.2 ≥ now)
  match s.delivery.inbound with
  | none => { s with delivery.delivered := delivered }
  | some inbound =>
    if inbound.expiresAt < now then
      { s with
        delivery.inbound := none
        delivery.delivered := delivered
        counters.dropped := s.counters.dropped + 1 }
    else { s with delivery.delivered := delivered }

/-- Drop everything that has expired. -/
def expireWork (now : ℕ) (s : AcousticSession) : AcousticSession :=
  expireInbound now (expireActive options now (expireQueues now s))

/-- Take the next packet, by class. -/
def dequeue (queues : Queues) : Option PendingPacket × Queues :=
  match queues.control with
  | item :: control => (some item, { queues with control })
  | [] =>
    match queues.heartbeat with
    | item :: heartbeat => (some item, { queues with heartbeat })
    | [] =>
      match queues.ordinary with
      | item :: ordinary => (some item, { queues with ordinary })
      | [] => (none, queues)

/-- Make the next packet active unless one is. -/
def activate (s : AcousticSession) : AcousticSession :=
  match s.delivery.active with
  | some _ => s
  | none =>
    { s with
      delivery.active := (dequeue s.delivery.queues).1
      delivery.queues := (dequeue s.delivery.queues).2 }

/-- Fragments of the next burst. -/
def missingFragments (pending : PendingPacket) : List Fas1Unit :=
  (pending.fragments.filter
    (fun unit => !pending.acknowledged.testBit unit.fragmentIndex)).take windowSize

/-- Arm the ACK timeout of a burst that is still the current one. -/
def armAckTimeout (generation sessionId : ℕ) (fragments : List Fas1Unit) (attempt : ℕ)
    (s : AcousticSession) : AcousticSession :=
  match s.delivery.active with
  | none => s
  | some pending =>
    if s.link.generation ≠ generation ∨ s.link.sessionId ≠ some sessionId ∨ s.state ≠ .ready ∨
        s.delivery.turnOwner ≠ some options.role ∨ !s.delivery.awaitingAck ∨
        pending.fragments ≠ fragments ∨ pending.attempts ≠ attempt then s
    else schedule (.onAckTimeout pending.packetId attempt) (ackTimeoutMs options s) s

/-- Hand the token over in the session's own view. -/
def yieldToken (s : AcousticSession) : AcousticSession :=
  { s with delivery.turnOwner := some (complement options.role) }

/-- Close an own turn that carries no packet. -/
def closeTurn (sessionId : ℕ) (s : AcousticSession) : Outcome := do
  let s ← send options .turnEnd (some sessionId) [] s
  return yieldToken options s

/-- Send a burst of fragments and close it. -/
def sendBurst (sessionId : ℕ) (pending : PendingPacket) (missing : List Fas1Unit)
    (s : AcousticSession) : Outcome := do
  let burst := { pending with attempts := pending.attempts + 1 }
  let s := { s with
    delivery.active := some burst
    delivery.awaitingAck := true }
  let before := s.io.sent.length
  let s ← missing.foldlM (fun s unit => transmit unit s) s
  let s ← send options .turnEnd (some sessionId) [] s
  let completions := s.io.sent.drop before
  if completions.any options.asynchronous then
    return { s with tasks.pending := s.tasks.pending ++
      [⟨.turn sessionId burst.fragments burst.attempts, s.link.generation, true⟩] }
  else
    return armAckTimeout options s.link.generation sessionId burst.fragments burst.attempts s

/-- Use the own turn: drain a packet, else send a due heartbeat, else pass. -/
def driveTurn (readings : Readings) (s : AcousticSession) : Outcome :=
  let s := expireWork options readings.now s
  match s.link.sessionId with
  | none => .ok s
  | some sessionId =>
    if s.state ≠ .ready ∨ s.delivery.turnOwner ≠ some options.role ∨ s.delivery.awaitingAck then
      .ok s
    else
      let s := activate (applyOutboundCandidate options s)
      match s.delivery.active with
      | none =>
        if s.delivery.heartbeatDue then do
          let s ← send options .heartbeat (some sessionId) []
            { s with delivery.heartbeatDue := false }
          closeTurn options sessionId s
        else closeTurn options sessionId s
      | some pending =>
        if pending.attempts ≥ maxAttempts then
          .ok (degrade options "acoustic_retry_exhausted"
            { s with
              delivery.active := none
              counters.dropped := s.counters.dropped + 1 })
        else if missingFragments pending = [] then
          .ok (schedule .driveTurn (guardMs options s)
            (yieldToken options { s with delivery.active := none }))
        else sendBurst options sessionId pending (missingFragments pending) s

/-- The ACK of a burst did not arrive. -/
def onAckTimeout (readings : Readings) (packetId attempt : ℕ) (s : AcousticSession) : Outcome :=
  match s.delivery.active with
  | none => .ok s
  | some active =>
    if !s.delivery.awaitingAck ∨ active.packetId ≠ packetId ∨ active.attempts ≠ attempt then .ok s
    else
      driveTurn options readings
        { s with
          delivery.awaitingAck := false
          counters.retries := s.counters.retries + 1 }

/-- Return to rest in the same epoch, and begin again as A, if nothing else did. -/
def restart (readings : Readings) (epoch : ℕ) (sessionId : Option ℕ) (s : AcousticSession) :
    Outcome :=
  if epoch ≠ s.link.epoch ∨ sessionId ≠ s.link.sessionId then .ok s
  else if options.role = .a then start options readings (reset options epoch s)
  else .ok (reset options epoch s)

/-- Give the session up and begin a new one; A tells its peer first. -/
def restartSession (readings : Readings) (s : AcousticSession) : Outcome :=
  match options.role, s.link.sessionId with
  | .a, some sessionId => do
    let epoch := s.link.epoch
    let s ← send options .reset (some sessionId) [] s
    if lastAsynchronous options s then
      return continueAfterPlayback options (.restart epoch (some sessionId)) s
    else restart options readings epoch (some sessionId) s
  | _, sessionId => restart options readings s.link.epoch sessionId s

/-- Wait for the answer of a recovery that is still current. -/
def armRecoveryTimeout (generation sessionId : ℕ) (s : AcousticSession) : AcousticSession :=
  if generation ≠ s.link.generation ∨ s.link.sessionId ≠ some sessionId ∨ s.state ≠ .recovering then
    s
  else schedule .markHeartbeatMissed (ackTimeoutMs options s) s

/-- Begin a recovery; A probes its peer with a heartbeat. -/
def beginRecovery (readings : Readings) (s : AcousticSession) : Outcome :=
  match s.link.sessionId with
  | none => .ok s
  | some sessionId =>
    if s.state ≠ .degraded then .ok s
    else if s.delivery.recoveryAttempts ≥ maxAttempts then restartSession options readings s
    else do
      let s := { s with
        state := .recovering
        reason := none
        delivery.recoveryAttempts := s.delivery.recoveryAttempts + 1
        counters.retries := s.counters.retries + 1 }
      if options.role = .a then
        let s ← send options .heartbeat (some sessionId) [] s
        if lastAsynchronous options s then
          return continueAfterPlayback options (.recovery sessionId) s
        else return armRecoveryTimeout options s.link.generation sessionId s
      else return armRecoveryTimeout options s.link.generation sessionId s

/-- Receive a RESET. -/
def onReset (readings : Readings) (sessionId : ℕ) (s : AcousticSession) : Outcome :=
  if s.link.sessionId ≠ some sessionId then .ok s
  else if options.role = .a then start options readings (reset options s.link.epoch s)
  else .ok (reset options s.link.epoch s)

/-- Bitmap of all fragments. -/
def fullMask (fragmentCount : ℕ) : ℕ := 2 ^ fragmentCount - 1

/-- Bitmap of the fragments held. -/
def bitmapOf (fragments : List Fas1Unit) : ℕ :=
  fragments.foldl (fun bitmap fragment => bitmap ||| 2 ^ fragment.fragmentIndex) 0

/-- The assembly a fragment belongs to: the one held, or a new one. -/
def assemblyFor (now : ℕ) (unit : Fas1Unit) (existing : Option InboundAssembly) :
    InboundAssembly :=
  existing.getD
    { packetId := unit.packetId
      fragmentCount := unit.fragmentCount
      packetLength := unit.packetLength
      fragments := []
      expiresAt := now + maxPacketAgeMs }

/-- An assembly holds a fragment of an index. -/
def holdsIndex (inbound : InboundAssembly) (index : ℕ) : Bool :=
  inbound.fragments.any (fun fragment => fragment.fragmentIndex = index)

/-- Store a fragment in the assembly, or count it as a duplicate. -/
def storeFragment (now : ℕ) (unit : Fas1Unit) (s : AcousticSession) :
    InboundAssembly × AcousticSession :=
  let inbound := assemblyFor now unit s.delivery.inbound
  if holdsIndex inbound unit.fragmentIndex then
    (inbound, { s with
      delivery.inbound := some inbound
      delivery.lastAck := some ⟨unit.packetId, bitmapOf inbound.fragments⟩
      counters.duplicates := s.counters.duplicates + 1 })
  else
    let stored := { inbound with fragments := inbound.fragments ++ [unit] }
    (stored, { s with
      delivery.inbound := some stored
      delivery.lastAck := some ⟨unit.packetId, bitmapOf stored.fragments⟩ })

/-- Remember a delivered identifier, forgetting the oldest beyond the bound. -/
def remember (packetId expiresAt : ℕ) (delivered : List (ℕ × ℕ)) : List (ℕ × ℕ) :=
  let added := delivered ++ [(packetId, expiresAt)]
  added.drop (added.length - maxDeliveredIds)

/-- The identifier was delivered and is still remembered. -/
def wasDelivered (packetId : ℕ) (s : AcousticSession) : Bool :=
  s.delivery.delivered.any (fun entry => entry.1 = packetId)

/-- Deliver an assembly once all its fragments are there. -/
def completeAssembly (now sessionId payloadBytes : ℕ) (unit : Fas1Unit) (inbound : InboundAssembly)
    (s : AcousticSession) : AcousticSession :=
  if inbound.fragments.length ≠ inbound.fragmentCount then s
  else match reassemblePacket inbound.fragments payloadBytes with
    | .error _ =>
      { s with
        delivery.inbound := none
        counters.dropped := s.counters.dropped + 1 }
    | .ok packet =>
      if packet.length ≠ inbound.packetLength ∨ wasDelivered unit.packetId s then s
      else
        { s with
          delivery.inbound := none
          delivery.delivered := remember unit.packetId (now + maxPacketAgeMs) s.delivery.delivered
          counters.deliveredPackets := s.counters.deliveredPackets + 1
          io.packets := s.io.packets ++
            [⟨s.link.generation, sessionId, unit.packetId, packet⟩] }

/-- The assembly held is of another packet or another geometry. -/
def conflicts (unit : Fas1Unit) (existing : InboundAssembly) : Bool :=
  existing.packetId ≠ unit.packetId || existing.fragmentCount ≠ unit.fragmentCount ||
    existing.packetLength ≠ unit.packetLength

/-- Count a dropped unit. -/
def dropUnit (s : AcousticSession) : AcousticSession :=
  { s with counters.dropped := s.counters.dropped + 1 }

/-- Receive a DATA fragment. -/
def onData (readings : Readings) (unit : Fas1Unit) (s : AcousticSession) : Outcome :=
  let s := expireWork options readings.now s
  if s.state ≠ .ready ∨ s.link.sessionId ≠ some unit.sessionId ∨
      s.delivery.turnOwner ≠ some (complement options.role) then .ok s
  else if wasDelivered unit.packetId s then
    .ok { s with
      counters.duplicates := s.counters.duplicates + 1
      delivery.lastAck := some ⟨unit.packetId, fullMask unit.fragmentCount⟩ }
  else if s.delivery.inbound.any (conflicts unit) then .ok (dropUnit s)
  else do
    let payloadBytes ← inboundPayloadBytes options s
    let expectedCount := ceilDivide unit.packetLength payloadBytes
    if unit.fragmentCount ≠ expectedCount ∨ unit.body.length ≠
        expectedLength unit.packetLength payloadBytes expectedCount unit.fragmentIndex then
      return dropUnit s
    else
      let (inbound, s) := storeFragment readings.now unit s
      return completeAssembly readings.now unit.sessionId payloadBytes unit inbound s

/-- Receive a TURN_END: acknowledge the packet of the turn, or take the token. -/
def onTurnEnd (sessionId : ℕ) (s : AcousticSession) : Outcome :=
  if s.state ≠ .ready ∨ s.link.sessionId ≠ some sessionId ∨
      s.delivery.turnOwner ≠ some (complement options.role) then .ok s
  else match s.delivery.lastAck with
    | some ack =>
      sendAck options ack.packetId ack.bitmap
        (yieldToken options { s with delivery.lastAck := none })
    | none =>
      .ok (schedule .driveTurn (guardMs options s)
        { s with delivery.turnOwner := some options.role })

/-- The packet as the owner knows it. -/
def acceptedOf (generation sessionId : ℕ) (pending : PendingPacket) : AcceptedPacket :=
  ⟨generation, sessionId, pending.packetId, pending.packet, pending.trafficClass⟩

/-- Receive an ACK. -/
def onAck (sessionId packetId bitmap : ℕ) (s : AcousticSession) : Outcome :=
  match s.delivery.active with
  | none => .ok s
  | some pending =>
    let legalMask := fullMask pending.fragments.length
    let acknowledged := pending.acknowledged ||| bitmap
    if s.state ≠ .ready ∨ s.link.sessionId ≠ some sessionId ∨ !s.delivery.awaitingAck ∨
        packetId ≠ pending.packetId ∨ bitmap > legalMask then .ok s
    else if acknowledged = pending.acknowledged ∧ acknowledged ≠ legalMask then
      .ok { s with counters.duplicates := s.counters.duplicates + 1 }
    else
      let pending := { pending with
        acknowledged
        attempts := if acknowledged = pending.acknowledged then pending.attempts else 0 }
      let s := clearDeliveryTimer { s with
        delivery.active := some pending
        delivery.awaitingAck := false }
      if acknowledged = legalMask then
        closeTurn options sessionId
          { s with
            delivery.active := none
            io.acknowledged := s.io.acknowledged ++
              [acceptedOf s.link.generation sessionId pending] }
      else
        .ok (schedule .driveTurn (guardMs options s)
          { s with
            delivery.turnOwner := some options.role
            counters.retries := s.counters.retries + 1 })

/-- The session is waiting for its peer to come back. -/
def recoveringFrom (state : AcousticSessionState) : Bool :=
  state = .degraded || state = .recovering

/-- A heartbeat of the peer makes the session ready. -/
def markReady (readings : Readings) (s : AcousticSession) : AcousticSession :=
  let s := if options.role = .b then clearCommitRetry s else s
  let s := armHeartbeatTimers options { clearDeliveryTimer s with
    state := .ready
    lastHeartbeatAtMs := some readings.now }
  { s with delivery.recoveryAttempts := 0 }

/-- B answers a recovery after its guard and the bootstrap at once. -/
def replyHeartbeat (recovering : Bool) (sessionId : ℕ) (s : AcousticSession) : Outcome :=
  if recovering then .ok (schedule (.recoveryReply sessionId) (guardMs options s) s)
  else send options .heartbeat (some sessionId) [] s

/-- Receive a HEARTBEAT. -/
def onHeartbeat (readings : Readings) (sessionId : ℕ) (s : AcousticSession) : Outcome :=
  if s.link.sessionId ≠ some sessionId ∨ (s.state ≠ .awaitingHeartbeat ∧ s.state ≠ .ready ∧
      s.state ≠ .degraded ∧ s.state ≠ .recovering) then .ok s
  else
    let recovering := recoveringFrom s.state
    let reply := s.state = .awaitingHeartbeat || (recovering && options.role = .b)
    let ready := markReady options readings s
    do
      let replied ←
        if reply && options.role = .b then replyHeartbeat options recovering sessionId ready
        else .ok ready
      return if reply || recovering then { replied with delivery.turnOwner := some .a }
        else replied

/-- Ask for a heartbeat in the next own turn. -/
def heartbeat (readings : Readings) (s : AcousticSession) : Outcome :=
  if s.link.sessionId = none ∨ s.state ≠ .ready then .ok s
  else driveTurn options readings { s with delivery.heartbeatDue := true }

/-- Answer of `enqueuePacket`. -/
structure AcousticQueueResult where
  /-- The packet is pending. -/
  accepted : Bool
  /-- Why it is not. -/
  reason : Option String := none
  /-- Identifier it is pending under. -/
  packetId : Option ℕ := none
  deriving DecidableEq, Repr

/-- Pending packets, the active one first. -/
def pendingPackets (s : AcousticSession) : List PendingPacket :=
  s.delivery.active.toList ++ s.delivery.queues.control ++ s.delivery.queues.heartbeat ++
    s.delivery.queues.ordinary

/-- Append a packet to the queue of its class. -/
def pushPacket (pending : PendingPacket) (queues : Queues) : Queues :=
  match pending.trafficClass with
  | .control => { queues with control := queues.control ++ [pending] }
  | .heartbeat => { queues with heartbeat := queues.heartbeat ++ [pending] }
  | .ordinary => { queues with ordinary := queues.ordinary ++ [pending] }

/-- The identifier after this one. -/
def nextPacketId (packetId : ℕ) : ℕ := if packetId = uint32Max then 1 else packetId + 1

/-- Queue a packet and log its acceptance. -/
def acceptPacket (sessionId : ℕ) (pending : PendingPacket) (s : AcousticSession) :
    AcousticSession :=
  { s with
    sequence := s.sequence + pending.fragments.length
    delivery.queues := pushPacket pending s.delivery.queues
    io.accepted := s.io.accepted ++ [acceptedOf s.link.generation sessionId pending] }

/-- Queue a packet under a new identifier and use the turn if it is the own one. -/
def queueNewPacket (readings : Readings) (sessionId : ℕ) (packet : Bytes)
    (trafficClass : AcousticTrafficClass) (s : AcousticSession) :
    Except (Fault AcousticSession) (AcousticQueueResult × AcousticSession) := do
  let packetId := s.delivery.packetId
  let s := { s with delivery.packetId := nextPacketId packetId }
  let outbound ← outboundSettings options s
  let fragments ← attempt (fragmentPacket
    { packet, sessionId, sequenceStart := s.sequence, packetId, sender := senderFlag options.role,
      payloadBytes := outbound.payloadBytes }) s
  let pending : PendingPacket :=
    { packetId, packet, fragments, trafficClass, expiresAt := readings.now + maxPacketAgeMs,
      attempts := 0, acknowledged := 0 }
  let s ← driveTurn options readings (acceptPacket sessionId pending s)
  return ({ accepted := true, packetId := some packetId }, s)

/-- Accept a packet for delivery. -/
def enqueuePacket (readings : Readings) (packet : Bytes) (trafficClass : AcousticTrafficClass)
    (s : AcousticSession) :
    Except (Fault AcousticSession) (AcousticQueueResult × AcousticSession) :=
  let s := expireWork options readings.now s
  match s.link.sessionId with
  | none => .ok ({ accepted := false, reason := some "acoustic_not_ready" }, s)
  | some sessionId =>
    if s.state ≠ .ready then .ok ({ accepted := false, reason := some "acoustic_not_ready" }, s)
    else if packet.length < 1 ∨ packet.length > fas1MaxPacketBytes then
      .ok ({ accepted := false, reason := some "acoustic_packet_bounds" }, s)
    else match (pendingPackets s).find?
        (fun entry => entry.trafficClass = trafficClass && entry.packet = packet) with
      | some duplicate =>
        .ok ({ accepted := true, packetId := some duplicate.packetId },
          { s with counters.duplicates := s.counters.duplicates + 1 })
      | none =>
        if queueLength s + s.delivery.active.toList.length ≥ maxQueuedPackets then
          .ok ({ accepted := false, reason := some "acoustic_queue_full" }, s)
        else queueNewPacket options readings sessionId packet trafficClass s

end Fipwave.AcousticDelivery
