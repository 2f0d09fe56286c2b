import Fipwave.FwavProtocol
import Fipwave.QualificationSession

/-!
# The two endpoints of a bridge

Sockets, packet queues, the admission of packets by the browser, readiness of
the acoustic session and the epoch. One browser and one FIPS worker own the
endpoints; packets go through one queue per direction. The browser answers
each packet it receives, and only the head of its queue is offered to it.
Histories of what was submitted, sent, answered and forwarded are kept beside
the fields of the source; no function reads them.
-/

namespace Fipwave.BridgePorts

open ByteWords FwavProtocol QualificationSession

/-- Age after which a queued frame is dropped. -/
def maxQueueAgeMs : ℕ := 5000
/-- Largest epoch. -/
def maxEpoch : ℕ := 0xffffffff

/-- Limits of the packet queues. -/
structure PacketQueueLimits where
  /-- Packets. -/
  maxItems : ℕ := 32
  /-- Bytes, headers included. -/
  maxBytes : ℕ := maxMessageBytes
  /-- Age of a packet. -/
  maxAgeMs : ℕ := maxQueueAgeMs
  deriving DecidableEq, Repr

/-- What the ports draw from outside. -/
structure PortOptions where
  /-- Limits of the packet queues. -/
  packetQueueLimits : PacketQueueLimits
  /-- The capability of each issue. -/
  randomBytes : ℕ → Bytes
  /-- The guarded sends that throw. -/
  sendThrows : ℕ → Bool

/-- An error of the bridge or of the code it calls. -/
inductive Refusal where
  | input (reasonCode : String)
  | other (message : String)
  deriving DecidableEq, Repr

/-- A message as it arrives. -/
structure RawMessage where
  /-- It is binary. -/
  isBinary : Bool
  /-- Its bytes. -/
  rawData : Bytes
  deriving DecidableEq, Repr

/-- Who acts on the bridge. -/
inductive Actor where
  | handler (socket : ℕ) (message : RawMessage)
  | arrival (socket : ℕ) (message : RawMessage)
  | greeting (socket : ℕ)
  | closure (socket : ℕ)
  | hangup (socket : ℕ)
  | expiryTimer
  | operatorReset (call : ℕ)
  | operatorStart (call : ℕ)
  | operatorPlayback
  | environment
  deriving DecidableEq, Repr

/-- A message the bridge sends. -/
inductive Outbound where
  | frame (frame : FwavFrame)
  | playback (encoded : Bytes)
  | acousticCapability (epoch : ℕ) (capability : Bytes)
  | session (snapshot : CyrinxSessionSnapshot)
  | qualificationResult (caseId : String) (epoch : ℕ)
  | cyrinxResult (epoch : ℕ) (caseId : String) (direction : LiteralDirection) (cold : Bool)
  | loopbackReport
  deriving DecidableEq, Repr

/-- State of a socket. -/
inductive ReadyState where
  | opened | closing | closed
  deriving DecidableEq, Repr

/-- Which endpoint a socket serves. -/
inductive Endpoint where
  | browser | fips
  deriving DecidableEq, Repr

/-- The phase an ERROR frame arrived in. -/
inductive ErrorOrigin where
  | cyrinx | quiet | other
  deriving DecidableEq, Repr

/-- What the bridge keeps for a browser connection. -/
structure BrowserConnectionState where
  /-- Nothing but a RESET is taken. -/
  mustResetBeforeUse : Bool := false
  /-- Phases in which ERROR frames arrived. -/
  errorOrigins : List (ℕ × ErrorOrigin) := []
  /-- Controls that took effect when they arrived. -/
  preemptedControls : List ℕ := []
  /-- Epoch of the received frames. -/
  receivedEpoch : ℕ := 0
  /-- Highest sequence received in it. -/
  highestReceivedSequence : ℤ := -1
  /-- Capability for one readiness proof. -/
  acousticCapability : Bytes := []
  /-- It was used. -/
  acousticCapabilityUsed : Bool := false
  /-- Number of the issue it comes from. -/
  issue : Option ℕ := none
  deriving DecidableEq, Repr

/-- What the handler of a socket is in the middle of. -/
inductive Underway where
  | nothing
  | packet (frame : FwavFrame)
  | resetting
  deriving DecidableEq, Repr

/-- A socket. -/
structure Socket where
  /-- Endpoint it serves. -/
  endpoint : Endpoint := .browser
  /-- State of the connection. -/
  readyState : ReadyState := .closed
  /-- It was admitted and its close was not handled yet: it is among the clients, and its
  tracker and its connection are among those a reset reaches. -/
  attached : Bool := false
  /-- Last sequence taken. -/
  lastSequence : ℤ := -1
  /-- State of a browser connection. -/
  connection : BrowserConnectionState := {}
  /-- Messages received and not yet taken. -/
  inbox : List RawMessage := []
  /-- Messages sent. -/
  sent : List Outbound := []
  /-- What its handler is in the middle of. -/
  underway : Underway := .nothing
  deriving DecidableEq, Repr

/-- A queued frame; entries are objects with an identity. -/
structure QueueEntry where
  /-- Identity. -/
  id : ℕ
  /-- Frame. -/
  frame : FwavFrame
  /-- Time it was queued. -/
  enqueuedAt : ℕ
  deriving DecidableEq, Repr

/-- A queue. -/
structure Queue where
  /-- Frames, oldest first. -/
  frames : List QueueEntry := []
  /-- Their bytes, headers included. -/
  bytes : ℕ := 0
  deriving DecidableEq, Repr

/-- A packet that waits for the answer of the browser. -/
structure PendingBrowserAdmission where
  /-- Its entry. -/
  entry : QueueEntry
  /-- Socket it was sent to. -/
  owner : ℕ
  /-- Number of answers it needs. -/
  attempts : ℕ
  /-- Timer of its next transmission. -/
  retryTimer : Option ℕ
  deriving DecidableEq, Repr

/-- Direction of a packet. -/
inductive PacketDirection where
  | browserToFips | fipsToBrowser
  deriving DecidableEq, Repr

/-- History of the packets to the browser. -/
inductive RelayEvent where
  | submitted (id epoch sequence : ℕ)
  | sent (socket id : ℕ)
  | answered (socket epoch sequence : ℕ) (result : FipsPacketAdmission)
  | accepted (id : ℕ)
  | expired (id : ℕ)
  | cleared (id : ℕ)
  | epochReset
  deriving DecidableEq, Repr

/-- A message whose handling ended in an error. -/
structure RefusedMessage where
  /-- Socket it came from. -/
  socket : ℕ
  /-- The message. -/
  message : RawMessage
  /-- The close of the socket was not handled yet. -/
  attached : Bool
  deriving DecidableEq, Repr

/-- Published figures of a packet queue. -/
structure PacketQueueSnapshot where
  /-- Packets. -/
  items : ℕ := 0
  /-- Bytes. -/
  bytes : ℕ := 0
  deriving DecidableEq, Repr

/-- The ports of a bridge. -/
structure Ports where
  /-- Epoch. -/
  epoch : ℕ := 1
  /-- Acoustic frames lost. -/
  discontinuities : ℕ := 0
  /-- Queues by kind of frame. -/
  queues : MessageType → Queue := fun _ => {}
  /-- Packets to the FIPS worker. -/
  browserToFips : Queue := {}
  /-- Packets to the browser. -/
  fipsToBrowser : Queue := {}
  /-- Packets forwarded to the FIPS worker. -/
  browserToFipsCounter : ℕ := 0
  /-- Packets the browser accepted. -/
  fipsToBrowserCounter : ℕ := 0
  /-- Published figures of the queue to the FIPS worker. -/
  browserToFipsFigures : PacketQueueSnapshot := {}
  /-- Published figures of the queue to the browser. -/
  fipsToBrowserFigures : PacketQueueSnapshot := {}
  /-- Published lengths of all queues, once they are published. -/
  queueCounts : Option ((MessageType → ℕ) × ℕ × ℕ) := none
  /-- An acoustic session is ready. -/
  acousticReady : Bool := false
  /-- The proof that made it ready. -/
  acousticReadinessProof : Option Bytes := none
  /-- Browser that owns its endpoint. -/
  owner : Option ℕ := none
  /-- Worker that owns its endpoint. -/
  fipsOwner : Option ℕ := none
  /-- Some browser was admitted. -/
  epochClaimed : Bool := false
  /-- Another browser may be admitted. -/
  reconnectAllowed : Bool := false
  /-- It has to reset first. -/
  reconnectRequiresReset : Bool := false
  /-- Packet that waits for an answer. -/
  pendingBrowserAdmission : Option PendingBrowserAdmission := none
  /-- Timers that are armed. -/
  retryTimers : List ℕ := []
  /-- Sockets by number. -/
  sockets : ℕ → Socket := fun _ => {}
  /-- Sockets there are. -/
  socketCount : ℕ := 0
  /-- Guarded sends so far. -/
  sendCount : ℕ := 0
  /-- Entries so far. -/
  entryCount : ℕ := 0
  /-- Timers so far. -/
  timerCount : ℕ := 0
  /-- Capabilities issued so far. -/
  issueCount : ℕ := 0
  /-- Socket whose frame made the session ready. -/
  armedBy : Option ℕ := none
  /-- Issues that made a session ready. -/
  armings : List ℕ := []
  /-- History of the packets to the browser. -/
  relay : List RelayEvent := []
  /-- Epochs and sequences of the packets forwarded to the FIPS worker. -/
  forwarded : List (ℕ × ℕ) := []
  /-- Messages whose handling ended in an error. -/
  refused : List RefusedMessage := []
  /-- Who waits for the report of a reset to be written. -/
  resetsUnderway : List Actor := []

/-- An error and the ports as the throwing statement left them. -/
structure Thrown where
  /-- Error. -/
  error : Refusal
  /-- Ports. -/
  ports : Ports

/-- A browser error. -/
def fail (reasonCode : String) (p : Ports) : Except Thrown Ports := .error ⟨.input reasonCode, p⟩

/-- Bytes a frame takes in a queue. -/
def frameBytes (frame : FwavFrame) : ℕ := frame.payload.length + headerBytes

/-- Change one socket. -/
def modifySocket (socket : ℕ) (f : Socket → Socket) (p : Ports) : Ports :=
  { p with sockets := Function.update p.sockets socket (f (p.sockets socket)) }

/-- Change what is kept for one browser connection. -/
def modifyConnection (socket : ℕ) (f : BrowserConnectionState → BrowserConnectionState)
    (p : Ports) : Ports :=
  modifySocket socket (fun k => { k with connection := f k.connection }) p

/-- Send on a socket. -/
def send (socket : ℕ) (message : Outbound) (p : Ports) : Ports :=
  modifySocket socket (fun k => { k with sent := k.sent ++ [message] }) p

/-- The socket is open. -/
def isOpen (socket : ℕ) (p : Ports) : Bool := (p.sockets socket).readyState = .opened

/-- The owner of an endpoint, if its socket is open. -/
def openOwner (owner : Option ℕ) (p : Ports) : Option ℕ := owner.filter (isOpen · p)

/-- Send to every open client. -/
def broadcast (message : Outbound) (p : Ports) : Ports :=
  { p with sockets := fun k =>
      if (p.sockets k).attached && isOpen k p then
        { p.sockets k with sent := (p.sockets k).sent ++ [message] }
      else p.sockets k }

/-- Record history of the packets to the browser. -/
def record (events : List RelayEvent) (p : Ports) : Ports := { p with relay := p.relay ++ events }

/-- Publish the figures of the queues. -/
def refreshState (p : Ports) : Ports :=
  { p with
    browserToFipsFigures := ⟨p.browserToFips.frames.length, p.browserToFips.bytes⟩
    fipsToBrowserFigures := ⟨p.fipsToBrowser.frames.length, p.fipsToBrowser.bytes⟩
    queueCounts := some (fun type => (p.queues type).frames.length,
      p.browserToFips.frames.length, p.fipsToBrowser.frames.length) }

/-- Forget the packet that waits for an answer, with its timer. -/
def clearPendingBrowserAdmission (p : Ports) : Ports :=
  { p with
    retryTimers := match p.pendingBrowserAdmission.bind (·.retryTimer) with
      | none => p.retryTimers
      | some timer => p.retryTimers.erase timer
    pendingBrowserAdmission := none }

/-- Empty all queues. -/
def clearQueues (p : Ports) : Ports :=
  let p := record (p.fipsToBrowser.frames.map (fun entry => .cleared entry.id)) p
  refreshState { clearPendingBrowserAdmission p with
    queues := fun _ => {}, browserToFips := {}, fipsToBrowser := {} }

/-- Kinds of frames that have a queue. -/
def typedQueues : List MessageType :=
  [.pcmCapture, .pcmPlayback, .qualificationCase, .qualificationResult, .error, .reset]

/-- Name of a kind of frame. -/
def queueName : MessageType → String
  | .hello => "HELLO"
  | .audioSettings => "AUDIO_SETTINGS"
  | .pcmCapture => "PCM_CAPTURE"
  | .pcmPlayback => "PCM_PLAYBACK"
  | .qualificationCase => "QUALIFICATION_CASE"
  | .qualificationResult => "QUALIFICATION_RESULT"
  | .error => "ERROR"
  | .reset => "RESET"
  | .fipsPacket => "FIPS_PACKET"
  | .browserArm => "BROWSER_ARM"
  | .browserDisarm => "BROWSER_DISARM"
  | .acousticReady => "ACOUSTIC_READY"
  | .acousticDisarm => "ACOUSTIC_DISARM"
  | .fipsPacketAdmission => "FIPS_PACKET_ADMISSION"

/-- Frames that carry sound. -/
def acoustic (type : MessageType) : Bool := type = .pcmCapture || type = .pcmPlayback

/-- An entry is too old. -/
def stale (maxAgeMs now : ℕ) (entry : QueueEntry) : Bool := maxAgeMs + entry.enqueuedAt < now

/-- Bytes of several entries. -/
def entriesBytes (entries : List QueueEntry) : ℕ := (entries.map (fun e => frameBytes e.frame)).sum

/-- A queue without the entries at its head that are too old. -/
def dropStale (maxAgeMs now : ℕ) (queue : Queue) : Queue :=
  { frames := queue.frames.dropWhile (stale maxAgeMs now)
    bytes := queue.bytes - entriesBytes (queue.frames.takeWhile (stale maxAgeMs now)) }

/-- Queue a frame by its kind. -/
def enqueue (frame : FwavFrame) (now : ℕ) (p : Ports) : Except Thrown Ports :=
  if frame.type ∉ typedQueues then .ok p
  else
    let queue := p.queues frame.type
    let expired := queue.frames.takeWhile (stale maxQueueAgeMs now)
    let lost := if acoustic frame.type then 1 else 0
    let queue := dropStale maxQueueAgeMs now queue
    let p := { p with
      queues := Function.update p.queues frame.type queue
      discontinuities := p.discontinuities + lost * expired.length }
    if queue.bytes + frameBytes frame > maxMessageBytes then
      fail ("FWAV " ++ queueName frame.type ++ " queue overflow")
        { p with discontinuities := p.discontinuities + lost }
    else
      .ok (refreshState { p with
        queues := Function.update p.queues frame.type
          ⟨queue.frames ++ [⟨p.entryCount, frame, now⟩], queue.bytes + frameBytes frame⟩
        entryCount := p.entryCount + 1 })

variable (options : PortOptions)

/-- A send inside a try block: whether it throws. -/
def trySend (socket : ℕ) (message : Outbound) (p : Ports) : Bool × Ports :=
  let counted := { p with sendCount := p.sendCount + 1 }
  if options.sendThrows p.sendCount then (true, counted) else (false, send socket message counted)

/-- Drop the packets to the browser that are too old. -/
def expireToBrowser (now : ℕ) (p : Ports) : Ports :=
  let expired := p.fipsToBrowser.frames.takeWhile (stale options.packetQueueLimits.maxAgeMs now)
  let cleared :=
    if p.pendingBrowserAdmission.any (fun pending => expired.any (·.id = pending.entry.id)) then
      clearPendingBrowserAdmission p
    else p
  record (expired.map (fun entry => .expired entry.id))
    { cleared with fipsToBrowser := dropStale options.packetQueueLimits.maxAgeMs now p.fipsToBrowser }

/-- Drop the packets to the FIPS worker that are too old. -/
def expireToFips (now : ℕ) (p : Ports) : Ports :=
  { p with browserToFips := dropStale options.packetQueueLimits.maxAgeMs now p.browserToFips }

/-- A packet fits in a queue. -/
def fits (frame : FwavFrame) (queue : Queue) : Bool :=
  queue.frames.length < options.packetQueueLimits.maxItems &&
    queue.bytes + frameBytes frame ≤ options.packetQueueLimits.maxBytes

/-- A queue with one more packet. -/
def push (entry : QueueEntry) (queue : Queue) : Queue :=
  ⟨queue.frames ++ [entry], queue.bytes + frameBytes entry.frame⟩

/-- A queue without its head. -/
def shift (queue : Queue) : Queue :=
  match queue.frames with
  | [] => queue
  | entry :: rest => ⟨rest, queue.bytes - frameBytes entry.frame⟩

/-- Queue a packet. -/
def enqueuePacket (direction : PacketDirection) (frame : FwavFrame) (now : ℕ) (p : Ports) :
    Except Thrown Ports :=
  match direction with
  | .browserToFips =>
    let p := expireToFips options now p
    if !fits options frame p.browserToFips then fail "fips_packet_queue_overflow" p
    else .ok (refreshState { p with
      browserToFips := push ⟨p.entryCount, frame, now⟩ p.browserToFips
      entryCount := p.entryCount + 1 })
  | .fipsToBrowser =>
    let p := expireToBrowser options now p
    if !fits options frame p.fipsToBrowser then fail "fips_packet_queue_overflow" p
    else .ok (refreshState (record [.submitted p.entryCount frame.epoch frame.sequence] { p with
      fipsToBrowser := push ⟨p.entryCount, frame, now⟩ p.fipsToBrowser
      entryCount := p.entryCount + 1 }))

/-- Offer the head of its queue to the browser. -/
def flushToBrowser (p : Ports) : Ports :=
  match openOwner p.owner p with
  | none => p
  | some owner =>
    if (p.sockets owner).connection.mustResetBeforeUse then p
    else if p.pendingBrowserAdmission.isSome then p
    else match p.fipsToBrowser.frames with
      | [] => refreshState p
      | entry :: _ =>
        match trySend options owner (.frame entry.frame) p with
        | (true, p) => refreshState p
        | (false, p) => refreshState (record [.sent owner entry.id]
            { p with pendingBrowserAdmission := some ⟨entry, owner, 1, none⟩ })

/-- Send every packet to the FIPS worker; a send that throws loses its packet and ends. -/
def forwardPackets (worker : ℕ) : List QueueEntry → Ports → Ports
  | [], p => refreshState p
  | entry :: rest, p =>
    let p := { p with browserToFips := shift p.browserToFips }
    match trySend options worker (.frame entry.frame) p with
    | (true, p) => refreshState p
    | (false, p) => forwardPackets worker rest { p with
        browserToFipsCounter := p.browserToFipsCounter + 1
        forwarded := p.forwarded ++ [(entry.frame.epoch, entry.frame.sequence)] }

/-- Empty the queue to the FIPS worker. -/
def flushToFips (p : Ports) : Ports :=
  match openOwner p.fipsOwner p with
  | none => p
  | some worker => forwardPackets options worker p.browserToFips.frames p

/-- Flush a queue. -/
def flushPacketQueue (direction : PacketDirection) (p : Ports) : Ports :=
  match direction with
  | .browserToFips => flushToFips options p
  | .fipsToBrowser => flushToBrowser options p

/-- The destination of a packet is connected. -/
def packetDestinationReady (direction : PacketDirection) (p : Ports) : Bool :=
  match direction with
  | .browserToFips => (openOwner p.fipsOwner p).isSome
  | .fipsToBrowser => (openOwner p.owner p).isSome

/-- A retry timer fires: the packet that waits is sent again. -/
def retryBrowserAdmission (timer : ℕ) (p : Ports) : Ports :=
  let p := { p with retryTimers := p.retryTimers.erase timer }
  match p.pendingBrowserAdmission with
  | none => p
  | some pending =>
    if some pending.owner ≠ p.owner ∨ pending.entry.frame.epoch ≠ p.epoch then p
    else
      let p := { p with pendingBrowserAdmission := some { pending with retryTimer := none } }
      if !isOpen pending.owner p then p
      else match trySend options pending.owner (.frame pending.entry.frame) p with
        | (true, p) => refreshState p
        | (false, p) => record [.sent pending.owner pending.entry.id] p

/-- A frame of the bridge for a packet, with the answer of the browser. -/
def admissionFrame (packet : FwavFrame) (result : FipsPacketAdmission) : FwavFrame :=
  { type := .fipsPacketAdmission
    epoch := packet.epoch
    sequence := packet.sequence
    payload := [result.byte] }

/-- Tell the FIPS worker what became of its packet. -/
def notifyFipsPacketAdmission (packet : FwavFrame) (result : FipsPacketAdmission) (p : Ports) :
    Ports :=
  match openOwner p.fipsOwner p with
  | none => p
  | some worker => (trySend options worker (.frame (admissionFrame packet result)) p).2

/-- The head leaves the queue to the browser and nothing waits for an answer. -/
def shiftToBrowser (event : ℕ → RelayEvent) (entry : QueueEntry) (p : Ports) : Ports :=
  record [event entry.id]
    (clearPendingBrowserAdmission { p with fipsToBrowser := shift p.fipsToBrowser })

/-- The browser accepted the packet that waits. -/
def admissionAccepted (pending : PendingBrowserAdmission) (p : Ports) : Ports :=
  if p.fipsToBrowser.frames.head? ≠ some pending.entry then
    flushToBrowser options (refreshState (clearPendingBrowserAdmission p))
  else
    let p := shiftToBrowser .accepted pending.entry p
    let p := { p with fipsToBrowserCounter := p.fipsToBrowserCounter + 1 }
    let p := notifyFipsPacketAdmission options pending.entry.frame .accepted p
    flushToBrowser options (refreshState p)

/-- The queue of the browser is full: the packet is offered again later, until it is too old. -/
def admissionQueueFull (pending : PendingBrowserAdmission) (now : ℕ) (p : Ports) :
    Except Thrown Ports :=
  let p :=
    if pending.attempts = 1 then
      notifyFipsPacketAdmission options pending.entry.frame .queueFull p
    else p
  if stale options.packetQueueLimits.maxAgeMs now pending.entry then
    if p.fipsToBrowser.frames.head? ≠ some pending.entry then
      fail "fips_packet_admission_queue_mismatch" p
    else .ok (flushToBrowser options (refreshState (shiftToBrowser .expired pending.entry p)))
  else .ok (refreshState { p with
    pendingBrowserAdmission := some { pending with
      attempts := pending.attempts + 1, retryTimer := some p.timerCount }
    retryTimers := p.retryTimers ++ [p.timerCount]
    timerCount := p.timerCount + 1 })

/-- An answer of the browser. -/
def acceptBrowserAdmission (socket : ℕ) (frame : FwavFrame) (now : ℕ) (p : Ports) :
    Except Thrown Ports :=
  match p.pendingBrowserAdmission with
  | none => .ok p
  | some pending =>
    if pending.owner ≠ socket ∨ p.owner ≠ some socket ∨ frame.epoch ≠ p.epoch then .ok p
    else if frame.sequence < pending.entry.frame.sequence then .ok p
    else if frame.sequence ≠ pending.entry.frame.sequence then
      fail "fips_packet_admission_stale_or_unowned" p
    else match decodeFipsPacketAdmission frame.payload with
      | .error message => .error ⟨.other message, p⟩
      | .ok .accepted => .ok (admissionAccepted options pending p)
      | .ok .queueFull => admissionQueueFull options pending now p

/-- Capability at the end of a readiness proof. -/
def proofCapability (proof : Bytes) : Bytes :=
  proof.drop (proof.length - acousticDisarmCapabilityBytes)

/-- Tell the FIPS worker whether the browser is ready. -/
def notifyFipsBrowserState (armed : Bool) (p : Ports) : Ports :=
  match openOwner p.fipsOwner p, p.acousticReadinessProof with
  | some worker, some proof =>
    send worker (.frame
      { type := if armed then .browserArm else .browserDisarm
        epoch := p.epoch
        sequence := 0
        payload := if armed then proof else proofCapability proof }) p
  | _, _ => p

/-- Issue a capability to a browser. -/
def issueAcousticCapability (socket : ℕ) (p : Ports) : Ports :=
  let capability := options.randomBytes p.issueCount
  let p := modifyConnection socket (fun c => { c with
    acousticCapability := capability
    acousticCapabilityUsed := false
    issue := some p.issueCount }) { p with issueCount := p.issueCount + 1 }
  if isOpen socket p then send socket (.acousticCapability p.epoch capability) p else p

/-- The acoustic session is no longer ready. -/
def disarmAcousticSession (p : Ports) : Ports :=
  if !p.acousticReady then p
  else
    let p := notifyFipsBrowserState false { p with acousticReady := false, armedBy := none }
    clearQueues { p with acousticReadinessProof := none }

/-- Close a socket because of an error. -/
def rejectSocket (socket : ℕ) (p : Ports) : Ports :=
  modifySocket socket (fun k =>
    { k with readyState := if k.readyState = .opened then .closing else k.readyState }) p

/-- The frame repeats the session, the settings and the capability that are ready. -/
def replaysReadiness (payload : Bytes) (p : Ports) : Bool :=
  p.acousticReady && p.acousticReadinessProof.any (fun proof =>
    payload.take 40 = proof.take 40 && payload.drop 48 = proof.drop 48)

/-- The heartbeat of a proof is recent. -/
def freshProof (proof : AcousticReadinessProof) (nowMs : ℕ) : Bool :=
  proof.heartbeatAtMs ≤ nowMs && nowMs - proof.heartbeatAtMs ≤ acousticReadinessFreshnessMs

/-- The acoustic session of a browser becomes ready. -/
def armAcousticSession (socket : ℕ) (payload : Bytes) (p : Ports) : Ports :=
  let issue := (p.sockets socket).connection.issue
  let p := modifyConnection socket (fun c => { c with acousticCapabilityUsed := true }) p
  notifyFipsBrowserState true { p with
    acousticReadinessProof := some payload
    acousticReady := true
    armedBy := some socket
    armings := p.armings ++ issue.toList }

/-- A frame that proves readiness. -/
def acceptAcousticReady (socket : ℕ) (frame : FwavFrame) (nowMs : ℕ) (p : Ports) :
    Except Thrown Ports :=
  if frame.sequence ≠ 0 ∨ frame.flags.getD 0 ≠ 0 then fail "acoustic_control_invalid" p
  else match decodeAcousticReadinessProof frame.payload with
    | .error message => .error ⟨.other message, p⟩
    | .ok proof =>
      let connection := (p.sockets socket).connection
      if replaysReadiness frame.payload p then .ok p
      else if !freshProof proof nowMs ∨ connection.acousticCapabilityUsed ∨
          proof.capability ≠ connection.acousticCapability then
        fail "acoustic_readiness_proof_invalid" p
      else if !p.acousticReady then .ok (armAcousticSession socket frame.payload p)
      else .ok p

/-- A frame that ends readiness; the capability is spent and another one is issued. -/
def acceptAcousticDisarm (socket : ℕ) (frame : FwavFrame) (p : Ports) : Except Thrown Ports :=
  if frame.sequence ≠ 0 ∨ frame.flags.getD 0 ≠ 0 then fail "acoustic_control_invalid" p
  else if p.acousticReadinessProof = none ∨
      frame.payload ≠ (p.sockets socket).connection.acousticCapability then
    fail "acoustic_disarm_capability_invalid" p
  else .ok (issueAcousticCapability options socket (disarmAcousticSession p))

/-- A browser asks for a capability. -/
def acceptHello (socket : ℕ) (frame : FwavFrame) (p : Ports) : Except Thrown Ports :=
  if frame.payload.length ≠ 0 ∨ frame.flags.getD 0 ≠ 0 then
    fail "acoustic_capability_request_invalid" p
  else .ok (issueAcousticCapability options socket p)

/-- A packet of the browser for the FIPS worker. -/
def acceptBrowserPacket (frame : FwavFrame) (now : ℕ) (p : Ports) : Except Thrown Ports :=
  if !packetDestinationReady .browserToFips p then fail "fips_destination_unavailable" p
  else match enqueuePacket options .browserToFips frame now p with
    | .error thrown => .error thrown
    | .ok p => .ok (flushPacketQueue options .browserToFips p)

/-- A message of the FIPS worker: a packet for the browser. -/
def acceptFipsPacket (socket : ℕ) (message : RawMessage) (now : ℕ) (p : Ports) :
    Except Thrown Ports :=
  if !message.isBinary then fail "binary_frames_required" p
  else match decodeFrame message.rawData with
    | .error text => .error ⟨.other text, p⟩
    | .ok frame =>
      if frame.type ≠ .fipsPacket then fail "fips_endpoint_requires_fips_packet" p
      else if frame.epoch ≠ p.epoch ∨ (frame.sequence : ℤ) ≤ (p.sockets socket).lastSequence then
        fail "stale_or_duplicate_frame" p
      else
        let p := modifySocket socket (fun k => { k with lastSequence := frame.sequence }) p
        if !packetDestinationReady .fipsToBrowser p then fail "browser_destination_unavailable" p
        else match enqueuePacket options .fipsToBrowser frame now p with
          | .error thrown => .error thrown
          | .ok p => .ok (flushPacketQueue options .fipsToBrowser p)

/-- A message of the FIPS worker; an error closes its socket. -/
def handleFipsMessage (socket : ℕ) (message : RawMessage) (now : ℕ) (p : Ports) : Ports :=
  match acceptFipsPacket options socket message now p with
  | .error thrown => rejectSocket socket thrown.ports
  | .ok p => p

/-- A browser can be admitted. -/
def browserAdmissible (p : Ports) : Bool :=
  (openOwner p.owner p).isNone && !(p.epochClaimed && !p.reconnectAllowed)

/-- The browser that is admitted next has to reset first. -/
def admittedGated (p : Ports) : Bool :=
  p.epochClaimed && p.reconnectAllowed && p.reconnectRequiresReset

/-- The connection of a browser that is admitted. -/
def freshConnection (p : Ports) : BrowserConnectionState :=
  { mustResetBeforeUse := admittedGated p
    receivedEpoch := p.epoch
    acousticCapability := List.replicate acousticDisarmCapabilityBytes 0 }

/-- A socket that is turned away. -/
def turnAway (p : Ports) : Ports :=
  modifySocket p.socketCount (fun k => { k with readyState := .closing })
    { p with socketCount := p.socketCount + 1 }

/-- A browser that is admitted owns its endpoint. -/
def admitBrowser (p : Ports) : Ports :=
  { p with
    sockets := Function.update p.sockets p.socketCount
      { endpoint := .browser
        readyState := .opened
        attached := true
        connection := freshConnection p }
    socketCount := p.socketCount + 1
    owner := some p.socketCount
    epochClaimed := true
    reconnectAllowed := false }

/-- A browser connects. -/
def connectBrowser (p : Ports) : Ports :=
  if !browserAdmissible p then turnAway p
  else if !admittedGated p then flushPacketQueue options .fipsToBrowser (admitBrowser p)
  else admitBrowser p

/-- A FIPS worker that is admitted owns its endpoint. -/
def admitFips (p : Ports) : Ports :=
  { p with
    sockets := Function.update p.sockets p.socketCount
      { endpoint := .fips, readyState := .opened, attached := true }
    socketCount := p.socketCount + 1
    fipsOwner := some p.socketCount }

/-- A FIPS worker connects. -/
def connectFips (p : Ports) : Ports :=
  if (openOwner p.fipsOwner p).isSome then turnAway p
  else
    let p := flushPacketQueue options .browserToFips (admitFips p)
    if p.acousticReady then notifyFipsBrowserState true p else p

/-- The closing handshake of a socket begins. -/
def beginClose (socket : ℕ) (p : Ports) : Ports := rejectSocket socket p

/-- The socket is gone. -/
def detach (socket : ℕ) (p : Ports) : Ports :=
  modifySocket socket (fun k => { k with readyState := .closed, attached := false }) p

/-- The close of a FIPS worker. -/
def closeFips (socket : ℕ) (p : Ports) : Ports :=
  let p := detach socket p
  if p.fipsOwner = some socket then { p with fipsOwner := none } else p

/-- The close of the browser that owns its endpoint: nothing is pending and nothing ready. -/
def releaseOwner (p : Ports) : Ports :=
  disarmAcousticSession { clearPendingBrowserAdmission p with owner := none }

/-- The close of a browser; whether it ends a qualification under way. -/
def closeBrowser (socket : ℕ) (p : Ports) : Bool × Ports :=
  let p := detach socket p
  if p.owner ≠ some socket then (false, p)
  else
    let p := releaseOwner p
    if (p.sockets socket).connection.mustResetBeforeUse then
      (false, { p with reconnectAllowed := true, reconnectRequiresReset := true })
    else if p.reconnectAllowed then (false, p)
    else (true, { p with reconnectAllowed := true, reconnectRequiresReset := true })

/-- A connection in a new epoch. -/
def renewConnection (epoch : ℕ) (c : BrowserConnectionState) : BrowserConnectionState :=
  { c with
    mustResetBeforeUse := false
    receivedEpoch := epoch
    highestReceivedSequence := -1
    errorOrigins := []
    preemptedControls := [] }

/-- A socket in a new epoch. -/
def renewSocket (epoch : ℕ) (k : Socket) : Socket :=
  if k.attached then
    { k with lastSequence := -1, connection := renewConnection epoch k.connection }
  else k

/-- The handler of a socket asked for the reset. -/
def handles (actor : Actor) (socket : ℕ) : Bool :=
  match actor with
  | .handler other _ => other = socket
  | _ => false

/-- A reset of the endpoints once nothing is ready. -/
def resetPorts (actor : Actor) (p : Ports) : Ports :=
  let p := record [.epochReset] { p with
    epoch := p.epoch + 1
    discontinuities := 0
    browserToFipsCounter := 0
    fipsToBrowserCounter := 0
    acousticReady := false
    sockets := fun k =>
      let socket := renewSocket (p.epoch + 1) (p.sockets k)
      { socket with underway := if handles actor k then .resetting else socket.underway }
    resetsUnderway := p.resetsUnderway ++ [actor] }
  { clearQueues p with reconnectAllowed := true, reconnectRequiresReset := false }

/-- A RESET of the bridge. -/
def resetFrame (flags : Option ℕ) (epoch : ℕ) : FwavFrame :=
  { type := .reset, flags, epoch, sequence := 0, payload := [] }

/-- The report of a reset is no longer waited for. -/
def endReset (actor : Actor) (p : Ports) : Ports :=
  { p with resetsUnderway := p.resetsUnderway.erase actor }

/-- The report of a reset is written: every client learns of the new epoch. -/
def announceReset (actor : Actor) (p : Ports) : Ports :=
  { p with
    resetsUnderway := p.resetsUnderway.erase actor
    sockets := fun k =>
      if (p.sockets k).attached && isOpen k p then
        { p.sockets k with sent := (p.sockets k).sent ++
            [.frame (resetFrame (if p.fipsOwner = some k then none else some resetAckFlag)
              p.epoch)] }
      else p.sockets k }

end Fipwave.BridgePorts
