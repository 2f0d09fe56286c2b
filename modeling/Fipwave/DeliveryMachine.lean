import Fipwave.AcousticSession

/-!
# The delivery machine of a session

Turns, acknowledgements and recovery read and write only a part of a session:
its core. A move is one atomic change of the core. Every step of a session,
whether it returns or throws, is a sequence of moves of its core; statements
about turns and packets are proved about moves and hold of the session by
this refinement.
-/

namespace Fipwave.DeliveryMachine

open ByteWords ScriptIntegers ThrowingMethod Relation AcousticProtocol SettingsCommitment
  PacketFragments AcousticHandshake AcousticState AcousticMethods AcousticNegotiation
  AcousticDelivery AcousticSession

/-- What turns and packets depend on. -/
structure Core where
  /-- Protocol state. -/
  state : AcousticSessionState
  /-- Current session. -/
  sessionId : Option ℕ
  /-- Number of resets. -/
  generation : ℕ
  /-- The modem still delivers units. -/
  subscribed : Bool
  /-- Candidates selected. -/
  selected : PerDirection (Option AcousticCandidate)
  /-- Settings of both directions. -/
  settings : Option AcousticSettings
  /-- Token, queues and assemblies. -/
  delivery : Delivery
  /-- The delivery timer. -/
  deliveryTimer : Option DeliveryTimer
  /-- Units handed to the modem. -/
  sent : List Fas1Unit
  /-- Packets delivered to the owner. -/
  packets : List DeliveredPacket
  /-- Packets accepted from the owner. -/
  accepted : List AcceptedPacket
  /-- Packets dropped as fully acknowledged. -/
  acknowledged : List AcceptedPacket
  /-- Some work chain still has a COMMIT of the peer to answer. -/
  acknowledging : Bool

/-- The job answers a COMMIT of the peer. -/
def answersCommit : Job → Bool
  | .onCommit _ => true
  | .queueCommit => false

/-- The stage answers a COMMIT of the peer. -/
def answersCommitAt : Stage → Bool
  | .acknowledgeDigest _ _ => true
  | _ => false

/-- The chain still has a COMMIT of the peer to answer. -/
def chainAcknowledges (chain : WorkChain) : Bool :=
  chain.running.any answersCommitAt || chain.jobs.any answersCommit

/-- Some chain of the session still has a COMMIT of the peer to answer. -/
def acknowledging (tasks : Tasks) : Bool :=
  chainAcknowledges tasks.work || tasks.orphans.any chainAcknowledges

/-- The core of a session. -/
def core (s : AcousticSession) : Core :=
  { state := s.state
    sessionId := s.link.sessionId
    generation := s.link.generation
    subscribed := s.subscribed
    selected := s.calibration.selected
    settings := s.commitment.settings
    delivery := s.delivery
    deliveryTimer := s.timers.deliveryTimer
    sent := s.io.sent
    packets := s.io.packets
    accepted := s.io.accepted
    acknowledged := s.io.acknowledged
    acknowledging := acknowledging s.tasks }

/-- States of a handshake, calibration or commit. -/
def Early (state : AcousticSessionState) : Prop :=
  state ∈ [.helloSent, .helloAckSent, .capsSent, .calibratingAToB, .calibratingBToA, .committing]

instance (state : AcousticSessionState) : Decidable (Early state) :=
  inferInstanceAs (Decidable (state ∈ _))

/-- Unit kinds that say nothing about turns; a heartbeat of A is one, a
heartbeat of B is not. -/
def Negotiating (role : AcousticRole) (type : Fas1UnitType) : Prop :=
  type ∈ [.hello, .helloAck, .caps, .probe, .report, .commit, .commitAck, .reset] ∨
    (type = .heartbeat ∧ role = .a)

/-- What a step of the session gives its moves. -/
structure Context where
  /-- End of the session. -/
  role : AcousticRole
  /-- The core the step met. -/
  start : Core
  /-- Reading of the clock. -/
  now : ℕ
  /-- The unit being received. -/
  received : Option Fas1Unit
  /-- Candidates of the session. -/
  candidates : List AcousticCandidate
  /-- The transmission counter is at its last value. -/
  exhausted : Prop
  /-- The packet counter is at its last value when a packet is offered. -/
  wrapping : Prop

/-- The core after a reset. -/
def resetCore (role : AcousticRole) (c : Core) : Core :=
  { c with
    state := restState role
    sessionId := none
    generation := c.generation + 1
    selected := ⟨none, none⟩
    settings := none
    delivery := { packetId := c.delivery.packetId }
    deliveryTimer := none }

/-- The burst of a packet, one attempt later. -/
def burstOf (pending : PendingPacket) : PendingPacket :=
  { pending with attempts := pending.attempts + 1 }

/-- The fragments held after one more arrives. -/
def withFragment (inbound : InboundAssembly) (unit : Fas1Unit) : InboundAssembly :=
  if holdsIndex inbound unit.fragmentIndex then inbound
  else { inbound with fragments := inbound.fragments ++ [unit] }

/-- The assembly a fragment leaves behind when it is stored. -/
def assemblyAfter (now : ℕ) (unit : Fas1Unit) (delivery : Delivery) : InboundAssembly :=
  withFragment (assemblyFor now unit delivery.inbound) unit

/-- Payload size of the units an end receives. -/
def inboundPayload (role : AcousticRole) (settings : AcousticSettings) : ℕ :=
  match role with
  | .a => settings.bToA.payloadBytes
  | .b => settings.aToB.payloadBytes

/-- The core stores a received fragment. -/
structure Assembles (x : Context) (c : Core) (unit : Fas1Unit) (payloadBytes : ℕ) : Prop where
  /-- It is the unit being received. -/
  received : x.received = some unit
  /-- A fragment. -/
  type : unit.type = .data
  /-- The session is ready. -/
  state : c.state = .ready
  /-- The fragment belongs to the session. -/
  session : c.sessionId = some unit.sessionId
  /-- The peer owns the turn. -/
  owner : c.delivery.turnOwner = some (complement x.role)
  /-- Its packet was not delivered yet. -/
  fresh : ∀ entry ∈ c.delivery.delivered, entry.1 ≠ unit.packetId
  /-- It conflicts with no other assembly. -/
  agrees : ∀ existing, c.delivery.inbound = some existing → conflicts unit existing = false
  /-- The committed payload size. -/
  payload : ∃ settings, c.settings = some settings ∧ payloadBytes = inboundPayload x.role settings
  /-- The packet is cut into payloads of that size. -/
  count : unit.fragmentCount = ceilDivide unit.packetLength payloadBytes
  /-- The fragment has its share of the packet. -/
  length : unit.body.length =
    expectedLength unit.packetLength payloadBytes unit.fragmentCount unit.fragmentIndex

/-- The packet after an acknowledgement. -/
def acknowledgedBy (pending : PendingPacket) (bitmap : ℕ) : PendingPacket :=
  { pending with
    acknowledged := pending.acknowledged ||| bitmap
    attempts := if pending.acknowledged ||| bitmap = pending.acknowledged then pending.attempts
      else 0 }

/-- Pending packets, the active one first. -/
def pendingOf (delivery : Delivery) : List PendingPacket :=
  delivery.active.toList ++ delivery.queues.control ++ delivery.queues.heartbeat ++
    delivery.queues.ordinary

/-- A packet as it is queued. -/
def newPacket (now : ℕ) (input : FragmentPacketInput) (fragments : List Fas1Unit)
    (trafficClass : AcousticTrafficClass) : PendingPacket :=
  { packetId := input.packetId
    packet := input.packet
    fragments
    trafficClass
    expiresAt := now + maxPacketAgeMs
    attempts := 0
    acknowledged := 0 }

/-- One atomic change of a core. -/
inductive Move (x : Context) : Core → Core → Prop
  /-- Handshake, calibration and commit traffic. -/
  | negotiate (c : Core) (units : List Fas1Unit) (state : AcousticSessionState)
      (hunits : ∀ unit ∈ units, Negotiating x.role unit.type)
      (hwf : ∀ unit ∈ units, unit.WellFormed)
      (hstate : state = c.state ∨ state = .error ∨ Early c.state ∧ Early state) :
      Move x c { c with state, sent := c.sent ++ units }
  /-- A session is opened from rest. -/
  | openSession (c : Core) (sessionId : ℕ) (state : AcousticSessionState)
      (hrest : c.state = restState x.role) (hstate : Early state) :
      Move x c { c with state, sessionId := some sessionId }
  /-- The session is reset. -/
  | reset (c : Core) : Move x c (resetCore x.role c)
  /-- A session at rest is disposed of. -/
  | unsubscribe (c : Core) (hreceived : x.received = none) (hrest : c.state = restState x.role) :
      Move x c { c with subscribed := false }
  /-- A direction is fully probed. -/
  | selectCandidate (c : Core) (direction : Direction) (candidate : AcousticCandidate)
      (hcandidate : candidate ∈ x.candidates) :
      Move x c { c with selected := c.selected.set (some candidate) direction }
  /-- The settings of the selected candidates are recorded. -/
  | commitSettings (c : Core) (aToB bToA : AcousticCandidate) (hstate : c.state = .committing)
      (haToB : c.selected.aToB = some aToB) (hbToA : c.selected.bToA = some bToA) :
      Move x c { c with settings := some ⟨toSettings aToB, toSettings bToA⟩ }
  /-- The commit gives the token to A. -/
  | commitToken (hstate : x.start.acknowledging = true ∨ x.start.state = .committing) :
      Move x x.start { x.start with
        state := .awaitingHeartbeat
        delivery.turnOwner := some .a }
  /-- The work chains advance; only A queues an answer to a COMMIT. -/
  | work (c : Core) (acknowledging : Bool)
      (h : acknowledging = true → c.acknowledging = true ∨ x.role = .a) :
      Move x c { c with acknowledging }
  /-- Expired packets leave the queues. -/
  | expireQueues (c : Core) :
      Move x c { c with
        delivery.queues :=
          ⟨retained x.now c.delivery.queues.control, retained x.now c.delivery.queues.heartbeat,
            retained x.now c.delivery.queues.ordinary⟩ }
  /-- The active packet expires or has no attempt left. -/
  | dropActive (c : Core) (pending : PendingPacket) (hactive : c.delivery.active = some pending)
      (hwhy : pending.expiresAt < x.now ∨ pending.attempts ≥ maxAttempts) :
      Move x c { c with
        delivery.active := none
        delivery.awaitingAck := false }
  /-- An expired assembly is dropped. -/
  | expireInbound (c : Core) (inbound : InboundAssembly) (h : c.delivery.inbound = some inbound)
      (hexpired : inbound.expiresAt < x.now) :
      Move x c { c with delivery.inbound := none }
  /-- Expired delivered identifiers are forgotten. -/
  | expireDelivered (c : Core) :
      Move x c { c with
        delivery.delivered := c.delivery.delivered.filter (fun entry => entry.2 ≥ x.now) }
  /-- The session degrades. -/
  | degrade (c : Core) (timer : DeliveryTimer) (htask : timer.task = .beginRecovery) :
      Move x c { c with
        state := .degraded
        delivery.awaitingAck := false
        deliveryTimer := some timer }
  /-- The next packet becomes active. -/
  | activate (c : Core) (hactive : c.delivery.active = none) :
      Move x c { c with
        delivery.active := (dequeue c.delivery.queues).1
        delivery.queues := (dequeue c.delivery.queues).2 }
  /-- A heartbeat becomes due or is taken up. -/
  | heartbeatDue (c : Core) (due : Bool) : Move x c { c with delivery.heartbeatDue := due }
  /-- An own turn without a packet is closed, after a heartbeat or nothing. -/
  | closeTurn (c : Core) (beats : List Fas1Unit) (turnEnd : Fas1Unit)
      (hbeats : ∀ unit ∈ beats, unit.type = .heartbeat) (htype : turnEnd.type = .turnEnd)
      (hwf : ∀ unit ∈ beats ++ [turnEnd], unit.WellFormed)
      (hawaiting : c.delivery.awaitingAck = false) :
      Move x c { c with
        sent := c.sent ++ beats ++ [turnEnd]
        delivery.turnOwner := some (complement x.role) }
  /-- The encoder refuses the unit that would have closed a heartbeat turn. -/
  | unclosedHeartbeat (c : Core) (beat : Fas1Unit) (htype : beat.type = .heartbeat)
      (hwf : beat.WellFormed) (hexhausted : x.exhausted) :
      Move x c { c with sent := c.sent ++ [beat] }
  /-- An own turn finds nothing left to send of its packet. -/
  | skipTurn (c : Core) (pending : PendingPacket) (timer : DeliveryTimer)
      (hactive : c.delivery.active = some pending) (hawaiting : c.delivery.awaitingAck = false)
      (hmissing : missingFragments pending = []) (htask : timer.task = .driveTurn) :
      Move x c { c with
        delivery.active := none
        delivery.turnOwner := some (complement x.role)
        deliveryTimer := some timer }
  /-- A burst of fragments is sent, closed unless the encoder refuses. -/
  | burst (c : Core) (pending : PendingPacket) (turnEnd : Fas1Unit) (count : ℕ)
      (hstate : c.state = .ready) (howner : c.delivery.turnOwner = some x.role)
      (hactive : c.delivery.active = some pending) (hawaiting : c.delivery.awaitingAck = false)
      (hmissing : missingFragments pending ≠ []) (htype : turnEnd.type = .turnEnd)
      (hwf : ∀ unit ∈ (missingFragments pending ++ [turnEnd]).take count, unit.WellFormed) :
      Move x c { c with
        delivery.active := some (burstOf pending)
        delivery.awaitingAck := true
        sent := c.sent ++ (missingFragments pending ++ [turnEnd]).take count }
  /-- A timeout is armed. -/
  | armTimeout (c : Core) (timer : DeliveryTimer)
      (htask : (∃ packetId attempt, timer.task = .onAckTimeout packetId attempt) ∨
        timer.task = .markHeartbeatMissed) :
      Move x c { c with deliveryTimer := some timer }
  /-- The delivery timer is cleared. -/
  | clearTimer (c : Core) : Move x c { c with deliveryTimer := none }
  /-- The ACK of a burst is given up. -/
  | ackTimeout (c : Core) : Move x c { c with delivery.awaitingAck := false }
  /-- A recovery begins. -/
  | recover (c : Core) (hstate : c.state = .degraded) :
      Move x c { c with
        state := .recovering
        delivery.recoveryAttempts := c.delivery.recoveryAttempts + 1 }
  /-- A delivered packet arrives again. -/
  | repeatedData (c : Core) (unit : Fas1Unit) (hunit : x.received = some unit)
      (htype : unit.type = .data) (hstate : c.state = .ready)
      (hsession : c.sessionId = some unit.sessionId)
      (howner : c.delivery.turnOwner = some (complement x.role))
      (hdelivered : ∃ entry ∈ c.delivery.delivered, entry.1 = unit.packetId) :
      Move x c { c with
        delivery.lastAck := some ⟨unit.packetId, fullMask unit.fragmentCount⟩ }
  /-- A fragment is stored in its assembly. -/
  | storeData (c : Core) (unit : Fas1Unit) (payloadBytes : ℕ) (inbound : InboundAssembly)
      (h : Assembles x c unit payloadBytes) (hinbound : inbound = assemblyAfter x.now unit c.delivery)
      (hincomplete : inbound.fragments.length ≠ inbound.fragmentCount) :
      Move x c { c with
        delivery.inbound := some inbound
        delivery.lastAck := some ⟨unit.packetId, bitmapOf inbound.fragments⟩ }
  /-- The fragment completes an assembly that cannot be put together. -/
  | failAssembly (c : Core) (unit : Fas1Unit) (payloadBytes : ℕ) (inbound : InboundAssembly)
      (message : String)
      (h : Assembles x c unit payloadBytes) (hinbound : inbound = assemblyAfter x.now unit c.delivery)
      (hcomplete : inbound.fragments.length = inbound.fragmentCount)
      (hresult : reassemblePacket inbound.fragments payloadBytes = .error message) :
      Move x c { c with
        delivery.inbound := none
        delivery.lastAck := some ⟨unit.packetId, bitmapOf inbound.fragments⟩ }
  /-- The fragment completes an assembly of another length than declared. -/
  | holdAssembly (c : Core) (unit : Fas1Unit) (payloadBytes : ℕ) (inbound : InboundAssembly)
      (packet : Bytes)
      (h : Assembles x c unit payloadBytes) (hinbound : inbound = assemblyAfter x.now unit c.delivery)
      (hcomplete : inbound.fragments.length = inbound.fragmentCount)
      (hresult : reassemblePacket inbound.fragments payloadBytes = .ok packet)
      (hlength : packet.length ≠ inbound.packetLength) :
      Move x c { c with
        delivery.inbound := some inbound
        delivery.lastAck := some ⟨unit.packetId, bitmapOf inbound.fragments⟩ }
  /-- The fragment completes an assembly, which is delivered. -/
  | deliver (c : Core) (unit : Fas1Unit) (payloadBytes : ℕ) (inbound : InboundAssembly)
      (packet : Bytes)
      (h : Assembles x c unit payloadBytes) (hinbound : inbound = assemblyAfter x.now unit c.delivery)
      (hcomplete : inbound.fragments.length = inbound.fragmentCount)
      (hresult : reassemblePacket inbound.fragments payloadBytes = .ok packet)
      (hlength : packet.length = inbound.packetLength) :
      Move x c { c with
        delivery.inbound := none
        delivery.lastAck := some ⟨unit.packetId, bitmapOf inbound.fragments⟩
        delivery.delivered := remember unit.packetId (x.now + maxPacketAgeMs) c.delivery.delivered
        packets := c.packets ++ [⟨c.generation, unit.sessionId, unit.packetId, packet⟩] }
  /-- The turn of the peer carried a packet: it is acknowledged. -/
  | replyAck (c : Core) (unit ackUnit : Fas1Unit) (ack : LastAck) (count : ℕ)
      (hunit : x.received = some unit) (htype : unit.type = .turnEnd) (hstate : c.state = .ready)
      (hsession : c.sessionId = some unit.sessionId)
      (howner : c.delivery.turnOwner = some (complement x.role))
      (hack : c.delivery.lastAck = some ack) (hackType : ackUnit.type = .ack)
      (hackSession : ackUnit.sessionId = unit.sessionId) (hackPacket : ackUnit.packetId = ack.packetId)
      (hackBitmap : ackUnit.sequence = ack.bitmap)
      (hwf : ∀ unit ∈ [ackUnit].take count, unit.WellFormed) :
      Move x c { c with
        delivery.lastAck := none
        delivery.turnOwner := some (complement x.role)
        sent := c.sent ++ [ackUnit].take count }
  /-- The turn of the peer carried nothing: the token is taken. -/
  | takeToken (unit : Fas1Unit) (timer : DeliveryTimer)
      (hunit : x.received = some unit) (htype : unit.type = .turnEnd)
      (hstate : x.start.state = .ready) (hsession : x.start.sessionId = some unit.sessionId)
      (howner : x.start.delivery.turnOwner = some (complement x.role))
      (hack : x.start.delivery.lastAck = none) (htask : timer.task = .driveTurn) :
      Move x x.start { x.start with
        delivery.turnOwner := some x.role
        deliveryTimer := some timer }
  /-- Every fragment is acknowledged: the packet is dropped. -/
  | fullAck (c : Core) (unit : Fas1Unit) (pending : PendingPacket) (sessionId : ℕ)
      (hunit : x.received = some unit) (htype : unit.type = .ack) (hstate : c.state = .ready)
      (hsession : c.sessionId = some sessionId) (hunitSession : unit.sessionId = sessionId)
      (hactive : c.delivery.active = some pending) (hawaiting : c.delivery.awaitingAck = true)
      (hpacket : unit.packetId = pending.packetId)
      (hlegal : unit.sequence ≤ fullMask pending.fragments.length)
      (hfull : pending.acknowledged ||| unit.sequence = fullMask pending.fragments.length) :
      Move x c { c with
        delivery.active := none
        delivery.awaitingAck := false
        deliveryTimer := none
        acknowledged := c.acknowledged ++ [acceptedOf c.generation sessionId pending] }
  /-- Some fragments are acknowledged: the rest is sent in another burst. -/
  | partialAck (c : Core) (unit : Fas1Unit) (pending : PendingPacket) (timer : DeliveryTimer)
      (hunit : x.received = some unit) (htype : unit.type = .ack) (hstate : c.state = .ready)
      (hsession : c.sessionId = some unit.sessionId)
      (hactive : c.delivery.active = some pending) (hawaiting : c.delivery.awaitingAck = true)
      (hpacket : unit.packetId = pending.packetId)
      (hlegal : unit.sequence ≤ fullMask pending.fragments.length)
      (hmore : pending.acknowledged ||| unit.sequence ≠ fullMask pending.fragments.length)
      (htask : timer.task = .driveTurn) :
      Move x c { c with
        delivery.active := some (acknowledgedBy pending unit.sequence)
        delivery.awaitingAck := false
        delivery.turnOwner := some x.role
        deliveryTimer := some timer }
  /-- A heartbeat arrives in a ready session. -/
  | confirm (c : Core) (hstate : c.state = .ready) :
      Move x c { c with
        deliveryTimer := none
        delivery.recoveryAttempts := 0 }
  /-- A heartbeat makes the session ready and gives the token to A. -/
  | resync (unit : Fas1Unit) (units : List Fas1Unit) (timer : Option DeliveryTimer)
      (hunit : x.received = some unit) (htype : unit.type = .heartbeat)
      (hsession : x.start.sessionId = some unit.sessionId)
      (hstate : x.start.state = .awaitingHeartbeat ∨ x.start.state = .degraded ∨
        x.start.state = .recovering)
      (hunits : ∀ unit ∈ units, unit.type = .heartbeat ∧ x.role = .b)
      (hwf : ∀ unit ∈ units, unit.WellFormed) :
      Move x x.start { x.start with
        state := .ready
        delivery.recoveryAttempts := 0
        delivery.turnOwner := some .a
        deliveryTimer := timer
        sent := x.start.sent ++ units }
  /-- The encoder refuses the bootstrap reply. -/
  | unansweredResync (c : Core) (unit : Fas1Unit) (hunit : x.received = some unit)
      (hrole : x.role = .b) (hstate : c.state = .awaitingHeartbeat) :
      Move x c { c with
        state := .ready
        delivery.recoveryAttempts := 0
        deliveryTimer := none }
  /-- The reply of a recovery is sent when its timer fires. -/
  | recoveryReply (c : Core) (timer : DeliveryTimer) (sessionId : ℕ) (units : List Fas1Unit)
      (htimer : c.deliveryTimer = some timer) (htask : timer.task = .recoveryReply sessionId)
      (hunits : ∀ unit ∈ units, unit.type = .heartbeat)
      (hwf : ∀ unit ∈ units, unit.WellFormed) :
      Move x c { c with
        deliveryTimer := none
        sent := c.sent ++ units }
  /-- A packet identifier is drawn for a packet that is then refused. -/
  | drawPacketId (c : Core) (hwrap : c.delivery.packetId = uint32Max → x.wrapping) :
      Move x c { c with delivery.packetId := nextPacketId c.delivery.packetId }
  /-- A packet is queued under a new identifier. -/
  | accept (c : Core) (input : FragmentPacketInput) (fragments : List Fas1Unit)
      (trafficClass : AcousticTrafficClass) (hstate : c.state = .ready)
      (hsession : c.sessionId = some input.sessionId) (hid : input.packetId = c.delivery.packetId)
      (hwrap : c.delivery.packetId = uint32Max → x.wrapping)
      (hfragments : fragmentPacket input = .ok fragments)
      (hfresh : ∀ entry ∈ pendingOf c.delivery,
        ¬(entry.trafficClass = trafficClass ∧ entry.packet = input.packet))
      (hroom : (pendingOf c.delivery).length < maxQueuedPackets) :
      Move x c { c with
        delivery.packetId := nextPacketId c.delivery.packetId
        delivery.queues := pushPacket (newPacket x.now input fragments trafficClass) c.delivery.queues
        accepted := c.accepted ++ [acceptedOf c.generation input.sessionId
          (newPacket x.now input fragments trafficClass)] }

/-- Sequences of moves. -/
abbrev Moves (x : Context) : Core → Core → Prop := ReflTransGen (Move x)

end Fipwave.DeliveryMachine
