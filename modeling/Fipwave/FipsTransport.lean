import Fipwave.FwavProtocol
import Fipwave.TransitionRun

/-!
# The sound transport of the FIPS worker

A worker task serves one socket to the local bridge at a time and reconnects
after each loss. Packets are queued under one lock with a budget of items and
of bytes; the task takes them, gives their bytes back and writes them. Frames
from the bridge arm and disarm the transport, begin epochs, answer packets and
carry packets of the peer. What the task and the callers do between two uses of
the lock is one step, so that every interleaving of them is a list of actions.
-/

namespace Fipwave.FipsTransport

open ByteWords FwavProtocol

/-- Life of a transport. -/
inductive TransportState where
  | configured | starting | up | down | failed
  deriving DecidableEq, Repr

/-- A stopped transport may be started. -/
def TransportState.canStart : TransportState → Bool
  | .configured | .down | .failed => true
  | .starting | .up => false

/-- Classes of traffic. -/
inductive TrafficClass where
  | control | heartbeat | ordinary
  deriving DecidableEq, Repr

/-- Byte of a class. -/
def TrafficClass.toWire : TrafficClass → ℕ
  | .control => 1
  | .heartbeat => 2
  | .ordinary => 3

/-- Class of a byte. -/
def TrafficClass.fromWire : ℕ → Option TrafficClass
  | 1 => some .control
  | 2 => some .heartbeat
  | 3 => some .ordinary
  | _ => none

/-- Errors of the transport. -/
inductive TransportError where
  | notStarted
  | alreadyStarted
  | startFailed (code : String)
  | invalidAddress (text : String)
  | mtuExceeded (packetSize mtu : ℕ)
  | sendFailed (text : String)
  deriving DecidableEq, Repr

/-- Settings of the transport. -/
structure SoundConfig where
  /-- Endpoint of the bridge. -/
  bridgeUrl : String
  /-- The one peer. -/
  peerAddr : String
  /-- Largest packet. -/
  mtu : ℕ
  /-- Packets that may wait. -/
  queueItems : ℕ
  /-- Bytes that may wait. -/
  queueBytes : ℕ
  /-- How long a packet may wait. -/
  queueMaxAgeMs : ℕ
  deriving DecidableEq, Repr

/-- Kinds of frames the transport knows. -/
def fwavTypeReset : ℕ := 8
/-- A packet. -/
def fwavTypeFipsPacket : ℕ := 9
/-- The browser became ready. -/
def fwavTypeBrowserArm : ℕ := 10
/-- The browser is no longer ready. -/
def fwavTypeBrowserDisarm : ℕ := 11
/-- The browser's answer to a packet. -/
def fwavTypeFipsPacketAdmission : ℕ := 14
/-- Answer to a packet the browser took. -/
def fwavAdmissionAccepted : ℕ := 1
/-- Answer to a packet the browser had no room for. -/
def fwavAdmissionQueueFull : ℕ := 2
/-- First wait before another attempt to connect. -/
def reconnectInitialDelay : ℕ := 100
/-- Longest wait before another attempt to connect. -/
def reconnectMaxDelay : ℕ := 1000

/-- Counters of the transport. -/
structure SoundCounters where
  /-- Packets queued. -/
  txPackets : ℕ := 0
  /-- Their bytes. -/
  txBytes : ℕ := 0
  /-- Packets delivered. -/
  rxPackets : ℕ := 0
  /-- Their bytes. -/
  rxBytes : ℕ := 0
  /-- Frames and packets rejected. -/
  rejected : ℕ := 0
  /-- Packets without room. -/
  overflowed : ℕ := 0
  /-- Sockets lost. -/
  disconnects : ℕ := 0
  deriving DecidableEq, Repr

/-- What the lock guards. -/
structure Runtime where
  /-- Life of the transport. -/
  state : TransportState := .configured
  /-- The bridge armed this socket. -/
  browserReady : Bool := false
  /-- The proof it armed it with. -/
  readinessProof : Option Bytes := none
  /-- Epoch of the bridge. -/
  epoch : ℕ := 1
  /-- Sequence of the last packet queued. -/
  nextSequence : ℕ := 0
  /-- Sequence of the last packet delivered. -/
  highestReceivedSequence : Option ℕ := none
  /-- The queue callers push to, by its number. -/
  sender : Option ℕ := none
  /-- Bytes reserved. -/
  outboundBytes : ℕ := 0
  /-- The last error. -/
  lastError : Option String := none
  /-- Counters. -/
  counters : SoundCounters := {}
  deriving DecidableEq, Repr

/-- A frame in the queue. -/
structure OutboundFrame where
  /-- The frame. -/
  bytes : Bytes
  /-- When it was queued. -/
  enqueuedAt : ℕ
  deriving DecidableEq, Repr

/-- What the task does with its socket. -/
inductive Work where
  /-- It waits for a frame of either side. -/
  | idle
  /-- It took a frame from the queue and has yet to give its bytes back. -/
  | taken (frame : OutboundFrame)
  /-- It writes a frame whose age it looked at. -/
  | writing (frame : OutboundFrame) (lookedAt : ℕ)
  /-- It empties the queue after an epoch began; it has dropped these frames. -/
  | draining (dropped : List OutboundFrame)
  deriving DecidableEq, Repr

/-- A socket being served. -/
structure Serving where
  /-- Number of the queue. -/
  channel : ℕ
  /-- Frames in the queue. -/
  queue : List OutboundFrame := []
  /-- What the task is doing. -/
  work : Work := .idle
  deriving DecidableEq, Repr

/-- The task. -/
inductive Worker where
  /-- There is none. -/
  | absent
  /-- It has a socket. -/
  | connected
  /-- It serves a socket. -/
  | serving (socket : Serving)
  /-- It connects again, or waits before it does. -/
  | reconnecting (delay : ℕ) (sleeping : Bool)
  /-- It ended. -/
  | ended
  deriving DecidableEq, Repr

/-- What happened, as an observer of sockets and callers sees it. -/
inductive Entry where
  /-- A socket is served. -/
  | opened
  /-- It no longer is. -/
  | closed
  /-- An epoch began. -/
  | reset (epoch : ℕ)
  /-- The bridge armed the transport. -/
  | armed (epoch : ℕ) (proof : Bytes)
  /-- The bridge disarmed it. -/
  | disarmed (capability : Bytes)
  /-- A packet was queued. -/
  | queued (epoch sequence : ℕ) (trafficClass : TrafficClass) (data : Bytes) (now : ℕ)
  /-- A frame was handed to the socket, after its age was looked at. -/
  | written (frame : OutboundFrame) (lookedAt : ℕ)
  /-- A packet was delivered to FIPS. -/
  | delivered (epoch sequence : ℕ) (data : Bytes)
  deriving DecidableEq, Repr

/-- A start or a stop that waits; callers of a packet have to wait for it. -/
inductive Exclusive where
  | starting | stopping
  deriving DecidableEq, Repr

/-- The transport, its task and what happened so far. -/
structure SoundTransport where
  /-- Settings. -/
  config : SoundConfig
  /-- What the lock guards. -/
  runtime : Runtime := {}
  /-- The task. -/
  worker : Worker := .absent
  /-- Number of the next queue. -/
  channels : ℕ := 0
  /-- A start or a stop under way. -/
  exclusive : Option Exclusive := none
  /-- A holder of the lock panicked. -/
  poisoned : Bool := false
  /-- What happened, the newest last. -/
  log : List Entry := []
  deriving DecidableEq, Repr

/-- A transport with these settings. -/
def made (config : SoundConfig) : SoundTransport := { config }

section Frames

/-- The frame of a packet. -/
def encodePacket (epoch sequence : ℕ) (trafficClass : TrafficClass) (payload : Bytes) : Bytes :=
  fwavMagic ++ [1, 9, lowByte trafficClass.toWire, 0] ++ writeWord 4 payload.length ++
    writeWord 4 epoch ++ writeWord 8 sequence ++ List.replicate 8 0 ++ payload

/-- A frame or a packet was rejected. -/
def reject (code : String) (r : Runtime) : Runtime :=
  { r with
    counters := { r.counters with rejected := r.counters.rejected + 1 }
    lastError := some code }

/-- What became of a frame. -/
structure Injected where
  /-- It was accepted. -/
  accepted : Bool
  /-- What the lock guards. -/
  runtime : Runtime
  /-- What an observer sees. -/
  entry : Option Entry := none

/-- A frame that is rejected. -/
def refuse (code : String) (r : Runtime) : Injected := ⟨false, reject code r, none⟩

/-- The header is one of a frame with this payload and no flags or format. -/
def headerFault (encoded : Bytes) : Option String :=
  if encoded.length < headerBytes ∨ sliceAt encoded 0 4 ≠ fwavMagic ∨ wordAt encoded 4 1 ≠ 1 then
    some "sound_frame_invalid"
  else if encoded.length ≠ headerBytes + wordAt encoded 8 4 then some "sound_frame_length_invalid"
  else if wordAt encoded 7 1 ≠ 0 ∨ wordAt encoded 24 4 ≠ 0 ∨ wordAt encoded 28 2 ≠ 0 ∨
      wordAt encoded 30 2 ≠ 0 then
    some "sound_frame_noncanonical"
  else none

/-- An epoch begins. -/
def injectReset (field epoch sequence payloadLength : ℕ) (r : Runtime) : Injected :=
  if field ≠ 0 ∨ payloadLength ≠ 0 ∨ sequence ≠ 0 ∨ epoch ≤ r.epoch then
    refuse "sound_reset_invalid" r
  else
    ⟨true, { r with
      epoch := epoch
      nextSequence := 0
      highestReceivedSequence := none
      browserReady := false
      readinessProof := none
      counters := {}
      lastError := none }, some (.reset epoch)⟩

/-- No part of the proof that names something is zero. -/
def proofStands (proof : Bytes) : Bool :=
  !allZero (sliceAt proof 0 8) && !allZero (sliceAt proof 8 32) && !allZero (sliceAt proof 48 16)

/-- The bridge arms the transport. -/
def injectArm (payload : Bytes) (r : Runtime) : Injected :=
  if payload.length ≠ acousticReadinessProofBytes then refuse "sound_browser_arm_proof_invalid" r
  else if proofStands payload = false then refuse "sound_browser_arm_proof_invalid" r
  else
    ⟨true, { r with readinessProof := some payload, browserReady := true },
      some (.armed r.epoch payload)⟩

/-- The bridge disarms the transport. -/
def injectDisarm (payload : Bytes) (r : Runtime) : Injected :=
  if payload.length ≠ acousticDisarmCapabilityBytes ∨
      r.readinessProof.all (fun proof => sliceAt proof 48 16 ≠ payload) then
    refuse "sound_browser_disarm_proof_invalid" r
  else ⟨true, { r with readinessProof := none, browserReady := false }, some (.disarmed payload)⟩

/-- A control of the browser. -/
def injectControl (kind field epoch sequence : ℕ) (payload : Bytes) (r : Runtime) : Injected :=
  if field ≠ 0 ∨ sequence ≠ 0 ∨ r.state ≠ .up ∨ r.epoch ≠ epoch then
    refuse "sound_browser_control_invalid" r
  else if kind = fwavTypeBrowserArm then injectArm payload r
  else injectDisarm payload r

/-- The browser's answer to a packet. -/
def injectAdmission (field epoch sequence : ℕ) (payload : Bytes) (r : Runtime) : Injected :=
  if field ≠ 0 ∨ payload.length ≠ 1 ∨ sequence = 0 ∨ r.state ≠ .up ∨ r.epoch ≠ epoch ∨
      sequence > r.nextSequence then
    refuse "sound_packet_admission_invalid" r
  else if wordAt payload 0 1 = fwavAdmissionAccepted then
    ⟨true, if r.lastError = some "sound_browser_queue_full" then { r with lastError := none } else r,
      none⟩
  else if wordAt payload 0 1 = fwavAdmissionQueueFull then
    ⟨true, reject "sound_browser_queue_full" r, none⟩
  else refuse "sound_packet_admission_invalid" r

/-- A packet of the peer; the channel to FIPS may be full. -/
def injectPacket (mtu : ℕ) (full : Bool) (kind field epoch sequence : ℕ) (data : Bytes)
    (r : Runtime) : Injected :=
  if kind ≠ fwavTypeFipsPacket ∨ TrafficClass.fromWire field = none ∨ data.length > mtu then
    refuse "sound_packet_invalid" r
  else if r.state ≠ .up ∨ r.browserReady = false ∨ r.epoch ≠ epoch then
    refuse "sound_packet_not_armed" r
  else if r.highestReceivedSequence.any (fun highest => sequence ≤ highest) then
    refuse "sound_packet_replay" r
  else if full then refuse "sound_packet_channel_full" r
  else
    ⟨true, { r with
      highestReceivedSequence := some sequence
      counters := { r.counters with
        rxPackets := r.counters.rxPackets + 1
        rxBytes := r.counters.rxBytes + data.length } }, some (.delivered epoch sequence data)⟩

/-- A binary message of the bridge. -/
def injectInbound (mtu : ℕ) (full : Bool) (encoded : Bytes) (r : Runtime) : Injected :=
  match headerFault encoded with
  | some code => refuse code r
  | none =>
    let kind := wordAt encoded 5 1
    let field := wordAt encoded 6 1
    let payload := encoded.drop headerBytes
    let epoch := wordAt encoded 12 4
    let sequence := wordAt encoded 16 8
    if kind = fwavTypeReset then injectReset field epoch sequence payload.length r
    else if kind = fwavTypeBrowserArm ∨ kind = fwavTypeBrowserDisarm then
      injectControl kind field epoch sequence payload r
    else if kind = fwavTypeFipsPacketAdmission then injectAdmission field epoch sequence payload r
    else injectPacket mtu full kind field epoch sequence payload r

end Frames

section Calls

/-- Only the bridge can arm the transport. -/
def armBrowser (t : SoundTransport) : Except TransportError Unit × SoundTransport :=
  (.error (.sendFailed "sound readiness requires bridge projection"),
    { t with runtime := reject "sound_bridge_projection_required" t.runtime })

/-- A packet found no room. -/
def overflow (code : String) (r : Runtime) : Runtime :=
  { r with
    counters := { r.counters with overflowed := r.counters.overflowed + 1 }
    lastError := some code }

/-- Push a frame to the queue with a number, if the task still reads it and it has room. -/
def trySend (channel : ℕ) (frame : OutboundFrame) (t : SoundTransport) : Option Worker :=
  match t.worker with
  | .serving socket =>
    if socket.channel = channel ∧ socket.queue.length < t.config.queueItems then
      some (.serving { socket with queue := socket.queue ++ [frame] })
    else none
  | _ => none

/-- Reserve the bytes of a frame and push it. -/
def enqueue (channel : ℕ) (data : Bytes) (trafficClass : TrafficClass) (now : ℕ)
    (t : SoundTransport) : Except TransportError ℕ × SoundTransport :=
  let r := t.runtime
  let sequence := (r.nextSequence + 1) % 2 ^ 64
  let frame := encodePacket r.epoch sequence trafficClass data
  let nextBytes := r.outboundBytes + frame.length
  if nextBytes > t.config.queueBytes then
    (.error (.sendFailed "sound queue byte budget is full"),
      { t with runtime := overflow "sound_queue_byte_budget_exceeded" r })
  else
    match trySend channel ⟨frame, now⟩ t with
    | none =>
      let released := { r with outboundBytes := nextBytes - frame.length }
      (.error (.sendFailed "sound queue is full"),
        { t with runtime := overflow "sound_queue_full" released })
    | some worker =>
      (.ok data.length,
        { t with
          worker := worker
          runtime := { r with
            outboundBytes := nextBytes
            nextSequence := sequence
            counters := { r.counters with
              txPackets := r.counters.txPackets + 1
              txBytes := r.counters.txBytes + data.length } }
          log := t.log ++ [.queued r.epoch sequence trafficClass data now] })

/-- Queue a packet of FIPS for the peer. -/
def sendClassified (addr : String) (data : Bytes) (trafficClass : TrafficClass) (now : ℕ)
    (t : SoundTransport) : Except TransportError ℕ × SoundTransport :=
  if addr ≠ t.config.peerAddr then
    (.error (.invalidAddress "sound peer is not configured"), t)
  else if data.length > t.config.mtu then (.error (.mtuExceeded data.length t.config.mtu), t)
  else if t.runtime.state ≠ .up then (.error .notStarted, t)
  else if t.runtime.browserReady = false then
    (.error (.sendFailed "sound browser is not armed"),
      { t with runtime := reject "sound_browser_not_armed" t.runtime })
  else
    match t.runtime.sender with
    | none =>
      (.error (.sendFailed "sound bridge is disconnected"),
        { t with runtime := reject "sound_bridge_disconnected" t.runtime })
    | some channel => enqueue channel data trafficClass now t

/-- What a caller is told about the connection to an address. -/
inductive ConnectionState where
  | connected
  | failed (reason : String)
  deriving DecidableEq, Repr

/-- The connection to an address. -/
def connectionState (addr : String) (t : SoundTransport) : ConnectionState :=
  if addr ≠ t.config.peerAddr then .failed "sound peer is not configured"
  else if t.runtime.state = .up ∧ t.runtime.browserReady = true then .connected
  else if t.runtime.state = .failed then
    .failed (t.runtime.lastError.getD "sound transport unavailable")
  else .failed "sound browser is not armed"

/-- A start begins. -/
def startAsync (t : SoundTransport) : Except TransportError Unit × SoundTransport :=
  if t.runtime.state.canStart = false then (.error .alreadyStarted, t)
  else
    (.ok (), { t with
      runtime := { t.runtime with state := .starting }
      exclusive := some .starting })

/-- The first attempt to connect ended, with a code if it failed. -/
def startDone (failure : Option String) (t : SoundTransport) : SoundTransport :=
  match failure with
  | none => { t with worker := .connected, exclusive := none }
  | some code =>
    { t with
      runtime := { t.runtime with state := .failed, lastError := some code }
      exclusive := none }

/-- The task is told to end. -/
def stopAsync (t : SoundTransport) : SoundTransport := { t with exclusive := some .stopping }

/-- The task ended. -/
def stopDone (t : SoundTransport) : SoundTransport :=
  { t with
    runtime := { t.runtime with
      sender := none
      browserReady := false
      readinessProof := none
      state := .down
      outboundBytes := 0 }
    worker := .absent
    exclusive := none }

end Calls

section Task

/-- The task begins to serve its socket. -/
def serve (t : SoundTransport) : SoundTransport :=
  { t with
    runtime := { t.runtime with
      state := .up
      sender := some t.channels
      browserReady := false
      readinessProof := none
      lastError := none }
    worker := .serving { channel := t.channels }
    channels := t.channels + 1
    log := t.log ++ [.opened] }

/-- The socket was lost; the queue goes with it. -/
def disconnect (t : SoundTransport) : SoundTransport :=
  { t with
    runtime := { t.runtime with
      counters := { t.runtime.counters with disconnects := t.runtime.counters.disconnects + 1 }
      sender := none
      browserReady := false
      readinessProof := none
      state := .starting
      lastError := some "sound_bridge_disconnected"
      outboundBytes := 0 }
    worker := .reconnecting reconnectInitialDelay false
    log := t.log ++ [.closed] }

/-- The task ends. -/
def finish (t : SoundTransport) : SoundTransport :=
  { t with
    runtime := { t.runtime with
      sender := none
      state := if t.runtime.state = .up then .down else t.runtime.state
      outboundBytes := 0 }
    worker := .ended
    log := t.log ++ [.closed] }

/-- The task gives the bytes of a frame back and looks at its age. -/
def account (socket : Serving) (frame : OutboundFrame) (now : ℕ) (t : SoundTransport) :
    SoundTransport :=
  if t.runtime.outboundBytes < frame.bytes.length then { t with poisoned := true }
  else
    let r := { t.runtime with outboundBytes := t.runtime.outboundBytes - frame.bytes.length }
    if now - frame.enqueuedAt > t.config.queueMaxAgeMs then
      { t with
        runtime := reject "sound_queue_item_expired" r
        worker := .serving { socket with work := .idle } }
    else
      { t with
        runtime := r
        worker := .serving { socket with work := .writing frame now } }

/-- The writing of a frame ended. -/
def wrote (socket : Serving) (frame : OutboundFrame) (lookedAt : ℕ) (whole : Bool)
    (t : SoundTransport) : SoundTransport :=
  let handed := { t with log := t.log ++ [.written frame lookedAt] }
  if whole then { handed with worker := .serving { socket with work := .idle } }
  else disconnect handed

/-- A binary message of the bridge arrived. -/
def receive (socket : Serving) (encoded : Bytes) (full : Bool) (t : SoundTransport) :
    SoundTransport :=
  let injected := injectInbound t.config.mtu full encoded t.runtime
  { t with
    runtime := injected.runtime
    worker := .serving { socket with
      work := if injected.accepted ∧ injected.runtime.epoch ≠ t.runtime.epoch then .draining []
        else .idle }
    log := t.log ++ injected.entry.toList }

/-- What the task or its surroundings do next. -/
inductive TaskAction where
  | serve
  | take
  | account (now : ℕ)
  | wrote (whole : Bool)
  | receive (encoded : Bytes) (full : Bool)
  | receiveOther
  | lost
  | drainOne
  | drained
  | connectDone (connected : Bool)
  | slept
  | halt

/-- The task goes on; an action that does not apply does nothing. -/
def taskStep (t : SoundTransport) (action : TaskAction) : SoundTransport :=
  match t.worker, action with
  | .connected, .serve => serve t
  | .serving ⟨channel, frame :: rest, .idle⟩, .take =>
    { t with worker := .serving ⟨channel, rest, .taken frame⟩ }
  | .serving ⟨channel, queue, .taken frame⟩, .account now =>
    account ⟨channel, queue, .taken frame⟩ frame now t
  | .serving ⟨channel, queue, .writing frame lookedAt⟩, .wrote whole =>
    wrote ⟨channel, queue, .writing frame lookedAt⟩ frame lookedAt whole t
  | .serving ⟨channel, queue, .idle⟩, .receive encoded full =>
    receive ⟨channel, queue, .idle⟩ encoded full t
  | .serving ⟨_, _, .idle⟩, .receiveOther =>
    { t with runtime := reject "sound_binary_frame_required" t.runtime }
  | .serving ⟨_, _, .idle⟩, .lost => disconnect t
  | .serving ⟨channel, frame :: rest, .draining dropped⟩, .drainOne =>
    { t with worker := .serving ⟨channel, rest, .draining (dropped ++ [frame])⟩ }
  | .serving ⟨channel, [], .draining _⟩, .drained =>
    { t with
      runtime := { t.runtime with outboundBytes := 0 }
      worker := .serving ⟨channel, [], .idle⟩ }
  | .serving ⟨_, _, .idle⟩, .halt => if t.exclusive = some .stopping then finish t else t
  | .reconnecting _ _, .halt => if t.exclusive = some .stopping then finish t else t
  | .reconnecting _ false, .connectDone true => { t with worker := .connected }
  | .reconnecting delay false, .connectDone false =>
    { t with
      runtime := { t.runtime with lastError := some "sound_bridge_reconnecting" }
      worker := .reconnecting delay true }
  | .reconnecting delay true, .slept =>
    { t with worker := .reconnecting (min (2 * delay) reconnectMaxDelay) false }
  | _, _ => t

end Task

/-- Actions of callers and of the task. -/
inductive Action where
  | start
  | startDone (failure : Option String)
  | stop
  | stopDone
  | armBrowser
  | send (addr : String) (data : Bytes) (trafficClass : TrafficClass) (now : ℕ)
  | task (action : TaskAction)

/-- One step of the transport; nothing takes a poisoned lock. -/
def step (t : SoundTransport) (action : Action) : SoundTransport :=
  if t.poisoned then t
  else
    match t.exclusive, action with
    | none, .start => (startAsync t).2
    | some .starting, .startDone failure => startDone failure t
    | none, .stop => stopAsync t
    | some .stopping, .stopDone =>
      if t.worker = .absent ∨ t.worker = .ended then stopDone t else t
    | none, .armBrowser => (armBrowser t).2
    | none, .send addr data trafficClass now => (sendClassified addr data trafficClass now t).2
    | _, .task action => taskStep t action
    | _, _ => t

/-- A transport with these settings after a list of actions. -/
def after (config : SoundConfig) (actions : List Action) : SoundTransport :=
  TransitionRun.run step (made config) actions

end Fipwave.FipsTransport
