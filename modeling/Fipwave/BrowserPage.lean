import Fipwave.AcceptedPackets
import Fipwave.BrowserFrames

/-!
# The page between the bridge and the acoustic session

A page holds one session and one socket of the bridge at a time. An adapter is
armed while the session is ready; packets of the bridge go through it to the
session, packets that the session hands over go through it to the bridge, and
the bridge is told when it is armed and disarmed. Every packet of the bridge is
answered. Each start of the modem makes a new session and a new adapter; what
the sessions before had begun still ends, but they hear nothing any more. What
other parts of the page send and receive is left open: they send control frames
of their kinds, and a message for them is taken or refused.
-/

namespace Fipwave.BrowserPage

open ByteWords ThrowingMethod AcousticProtocol AcousticHandshake AcousticState AcousticDelivery
  AcousticSession BrowserFrames
open FwavProtocol (headerBytes)

/-- A permission of the bridge to be told that the session is ready. -/
structure AcousticCapability where
  /-- Epoch of the page when it came. -/
  epoch : ℕ
  /-- The permission. -/
  bytes : Bytes
  deriving DecidableEq, Repr

/-- What packets must belong to. -/
structure Lifecycle where
  /-- Epoch of the session. -/
  epoch : ℕ
  /-- Generation of the adapter. -/
  generation : ℕ
  deriving DecidableEq, Repr

/-- The adapter of a session. -/
structure AcousticSessionAdapter where
  /-- Times it was invalidated. -/
  generation : ℕ := 1
  /-- Epoch it is armed for. -/
  armedEpoch : Option ℕ := none
  /-- What its packets must belong to. -/
  lifecycle : Option Lifecycle := none
  deriving DecidableEq, Repr

/-- What a page did, in order. -/
inductive PageNote where
  /-- A message was handed to a socket. -/
  | handed (socket : ℕ) (message : Bytes)
  /-- A packet of the bridge was read. -/
  | asked (socket epoch sequence : ℕ)
  /-- A script of the page offered a packet to the bridge. -/
  | offered (packet : Bytes)
  deriving DecidableEq, Repr

/-- A page with its session. -/
structure Page where
  /-- The session. -/
  session : AcousticSession
  /-- Sessions it has disposed of, in order. -/
  disposed : List AcousticSession := []
  /-- Its adapter. -/
  adapter : AcousticSessionAdapter := {}
  /-- Epoch of the page. -/
  epoch : ℕ := 1
  /-- The current socket. -/
  bridge : Option ℕ := none
  /-- Sockets made so far; they are numbered from one. -/
  bridgeGeneration : ℕ := 0
  /-- Next sequence of a frame. -/
  bridgeSequence : ℕ := 0
  /-- Generation that packets of the bridge are taken for. -/
  packetGeneration : ℕ := 0
  /-- The bridge has been told that the session is ready. -/
  browserPacketReady : Bool := false
  /-- Permission to tell it. -/
  acousticCapability : Option AcousticCapability := none
  /-- What it did. -/
  log : List PageNote := []
  deriving DecidableEq, Repr

/-- All sessions of a page, the current one last. -/
def Page.sessions (page : Page) : List AcousticSession := page.disposed ++ [page.session]

/-- The page hands a message to a socket. -/
def Page.hand (socket : ℕ) (message : Bytes) (page : Page) : Page :=
  { page with log := page.log ++ [.handed socket message] }

/-- Kind of a frame; the frame must at least be one. -/
def readFwavMessageType (input : Bytes) : Except String ℕ :=
  if input.length < headerBytes then .error "FWAV frame is shorter than its header"
  else if sliceAt input 0 4 ≠ [0x46, 0x57, 0x41, 0x56] ∨ wordAt input 4 1 ≠ 1 then
    .error "FWAV frame identity is invalid"
  else if wordAt input 8 4 ≠ input.length - headerBytes then .error "FWAV frame length is invalid"
  else .ok (wordAt input 5 1)

section Readiness

/-- The proof that the session is ready. -/
def readinessPayload (controlEpoch : ℕ) (page : Page) : Option Bytes :=
  match page.session.link.sessionId, page.session.commitment.settingsDigest,
    page.session.lastHeartbeatAtMs, page.acousticCapability with
  | some sessionId, some settingsDigest, some lastHeartbeatAtMs, some capability =>
    if page.session.state = .ready ∧ page.session.link.epoch = controlEpoch ∧ sessionId ≠ 0 ∧
        settingsDigest.length = 32 ∧ capability.epoch = controlEpoch ∧
        capability.bytes.length = 16 then
      some (writeWord 8 sessionId ++ settingsDigest ++ writeWord 8 lastHeartbeatAtMs ++
        capability.bytes)
    else none
  | _, _, _, _ => none

/-- Send READY (12) or DISARM (13), and say whether it was sent. DISARM uses the permission up. -/
def sendAcousticControl (isOpen : Bool) (type controlEpoch : ℕ) (page : Page) : Bool × Page :=
  match page.bridge, page.acousticCapability with
  | some socket, some capability =>
    if !isOpen ∨ capability.epoch ≠ controlEpoch then (false, page)
    else
      match (if type = 12 then readinessPayload controlEpoch page else some capability.bytes) with
      | none => (false, page)
      | some payload =>
        match encodeControlFrame type controlEpoch 0 payload with
        | .error _ => (false, page)
        | .ok frame =>
          (true, { page.hand socket frame with
            acousticCapability := if type = 13 then none else page.acousticCapability })
  | _, _ => (false, page)

/-- Tell the bridge that the session is ready. -/
def ready (isOpen : Bool) (controlEpoch : ℕ) (page : Page) : Page :=
  let (sent, page) := sendAcousticControl isOpen 12 controlEpoch page
  { page with
    browserPacketReady := sent
    packetGeneration := if sent then page.adapter.generation else page.packetGeneration }

/-- Disarm the adapter and tell the bridge. -/
def disarm (isOpen : Bool) (epoch : ℕ) (page : Page) : Page :=
  if page.adapter.armedEpoch = none then page
  else
    let told := (sendAcousticControl isOpen 13 epoch
      { page with adapter.lifecycle := none, browserPacketReady := false }).2
    { told with adapter.armedEpoch := none }

/-- Arm the adapter if the session is ready, and disarm it if it is not. -/
def refresh (isOpen : Bool) (page : Page) : Page :=
  let epoch := page.session.link.epoch
  if page.session.state ≠ .ready then disarm isOpen epoch page
  else if page.adapter.armedEpoch = some epoch then page
  else
    let disarmed := disarm isOpen (page.adapter.armedEpoch.getD epoch) page
    ready isOpen epoch { disarmed with
      adapter.armedEpoch := some epoch
      adapter.lifecycle := some ⟨epoch, disarmed.adapter.generation⟩ }

/-- Packets and calls that began before are void. -/
def invalidate (isOpen : Bool) (page : Page) : Page :=
  let disarmed := disarm isOpen page.session.link.epoch page
  { disarmed with adapter.generation := disarmed.adapter.generation + 1 }

/-- Nothing goes through the page until the adapter is armed again. -/
def closePackets (isOpen : Bool) (page : Page) : Page :=
  let invalid := invalidate isOpen page
  { invalid with
    adapter.lifecycle := none
    browserPacketReady := false
    packetGeneration := invalid.packetGeneration + 1 }

/-- Give up a socket; only the current one matters. -/
def failBridge (isOpen : Bool) (socket : ℕ) (page : Page) : Page :=
  if page.bridge ≠ some socket then page
  else { closePackets isOpen page with bridge := none }

end Readiness

section Packets

/-- Packets the adapter takes. -/
def validPacket (packet : Bytes) : Bool :=
  decide (0 < packet.length) && decide (packet.length ≤ 256 * 1024 - 32)

/-- Class of the session for a class of a frame. -/
def trafficClassOf (value : ℕ) : AcousticTrafficClass :=
  if value = 1 then .control else if value = 2 then .heartbeat else .ordinary

/-- Answer to a packet. -/
inductive PacketResult where
  | accepted
  | rejected (reason : String)
  deriving DecidableEq, Repr

/-- Answer of the session, as the adapter gives it. -/
def packetResult (result : AcousticQueueResult) : PacketResult :=
  if result.accepted then .accepted
  else if result.reason = some "acoustic_queue_full" then .rejected "acoustic_queue_full"
  else if result.reason = some "acoustic_not_ready" then .rejected "acoustic_not_ready"
  else if result.reason = some "acoustic_packet_bounds" then .rejected "acoustic_packet_bounds"
  else .rejected "acoustic_class_invalid"

/-- Why a packet of an epoch and a generation is not taken. -/
def inactive (epoch generation : ℕ) (adapter : AcousticSessionAdapter) : Option String :=
  match adapter.lifecycle with
  | none => some "not-armed"
  | some lifecycle =>
    if lifecycle.epoch ≠ epoch ∨ lifecycle.generation ≠ generation then some "stale" else none

variable (options : AcousticSessionOptions) (readings : Readings) (isOpen : Bool)

/-- A packet of the bridge is offered to the session. -/
def receivePacket (packet : Bytes) (trafficClass epoch generation : ℕ) (page : Page) :
    Except (Fault AcousticSession) (PacketResult × AcousticSession) :=
  match inactive epoch generation page.adapter with
  | some reason => .ok (.rejected reason, page.session)
  | none =>
    if !validPacket packet ∨ !isFipsTrafficClass trafficClass then
      .ok (.rejected "invalid", page.session)
    else do
      let (result, session) ←
        enqueuePacket options readings packet (trafficClassOf trafficClass) page.session
      return (packetResult result, session)

/-- Send a packet to the bridge. -/
def emitPacket (packet : Bytes) (trafficClass : ℕ) (page : Page) : Except String Page :=
  match page.bridge with
  | none => .error "FIPS bridge is disconnected"
  | some socket =>
    if !isOpen then .error "FIPS bridge is disconnected"
    else do
      let (frame, bridgeSequence) ← encodeFipsPacket page.browserPacketReady page.epoch
        page.bridgeSequence packet trafficClass
      return { page.hand socket frame with bridgeSequence }

/-- A packet that the session hands over, or that a script offers, goes to the bridge if the
adapter is armed. -/
def sendPacket (packet : Bytes) (page : Page) : Except String Page :=
  if page.adapter.lifecycle = none ∨ !validPacket packet then .ok page
  else emitPacket isOpen packet 3 page

/-- A packet of the bridge arrives: it is offered to the session, and the bridge is answered. -/
def handlePacket (socket : ℕ) (data : Bytes) (page : Page) : Page :=
  match decodeFipsPacket page.epoch data with
  | .error _ => failBridge isOpen socket page
  | .ok envelope =>
    let page := { page with log := page.log ++ [.asked socket page.epoch envelope.sequence] }
    match receivePacket options readings envelope.bytes envelope.trafficClass page.epoch
      page.packetGeneration page with
    | .error fault => failBridge isOpen socket { page with session := fault.state }
    | .ok (result, session) =>
      match sendFipsPacketAdmission page.epoch envelope.sequence (result = .accepted) with
      | .error _ => failBridge isOpen socket { page with session }
      | .ok frame => ({ page with session } : Page).hand socket frame

/-- A unit reaches the session. If the bridge cannot be sent the packet that the session hands
over, the session does not note that its peer is alive. -/
def hearUnit (unit : Fas1Unit) (page : Page) : Page :=
  let heard := deliverUnit options readings unit page.session
  match heard.io.packets.drop page.session.io.packets.length with
  | [] => refresh isOpen { page with session := heard }
  | delivered :: _ =>
    match sendPacket isOpen delivered.packet page with
    | .ok page => refresh isOpen { page with session := heard }
    | .error _ =>
      let thrown := left (handleUnit options readings unit page.session)
      refresh isOpen { page with session := thrown }

end Packets

section Sockets

/-- A permission arrives. The adapter may have been armed before it came. -/
def handleCapability (isOpen : Bool) (socket epoch : ℕ) (bytes : Bytes) (page : Page) : Page :=
  if epoch ≠ page.epoch ∨ bytes.length ≠ 16 then failBridge isOpen socket page
  else
    let permitted := { page with acousticCapability := some ⟨epoch, bytes⟩ }
    if page.session.state = .ready then
      if page.adapter.armedEpoch ≠ none then ready isOpen epoch permitted
      else refresh isOpen permitted
    else permitted

/-- A new socket replaces the current one. -/
def openFreshBridge (page : Page) : Page :=
  { page with
    bridge := some (page.bridgeGeneration + 1)
    bridgeGeneration := page.bridgeGeneration + 1
    bridgeSequence := 0 }

/-- A control frame with the next sequence is handed to a socket; one that cannot be built is
not. -/
def sendControl (socket type epoch : ℕ) (payload : Bytes) (page : Page) : Page :=
  match encodeControlFrame type epoch page.bridgeSequence payload with
  | .error _ => page
  | .ok frame => { page.hand socket frame with bridgeSequence := page.bridgeSequence + 1 }

section Sessions

variable (options : AcousticSessionOptions) (readings : Readings)

/-- What a session that was disposed of may still do: its timers and its promises end, and the
modem may report to its adapter that a unit could not be played. -/
def lingers : Action → Bool
  | .fire _ | .settle _ _ | .work _ | .orphanWork _ _ | .markHeartbeatMissed => true
  | _ => false

/-- A new session with a new adapter takes the place of the current one, which is disposed of. -/
def configureAcousticSession (isOpen : Bool) (page : Page) : Page :=
  let invalid := invalidate isOpen page
  { invalid with
    disposed := invalid.disposed ++ [act options readings .dispose invalid.session]
    session := initialSession options.role
    adapter := {} }

/-- A session that was disposed of goes on. -/
def linger (index : ℕ) (action : Action) (page : Page) : Page :=
  if lingers action then
    { page with disposed := page.disposed.modify index (act options readings action) }
  else page

end Sessions

/-- Kinds of the control frames of other parts of the page. -/
def otherControls : List ℕ := [2, 5, 6, 7, 8]

/-- What happens to a page. -/
inductive PageEvent where
  /-- A socket is made. -/
  | openFreshBridge
  /-- It is open; the page says HELLO. -/
  | opened (socket : ℕ)
  /-- A binary message; if it is for another part of the page, that part may refuse it. -/
  | binary (socket : ℕ) (data : Bytes) (refused : Bool)
  /-- A permission. -/
  | capability (socket epoch : ℕ) (bytes : Bytes)
  /-- Another text, for another part of the page. -/
  | text (socket : ℕ) (refused : Bool)
  /-- A socket fails or is closed. -/
  | failed (socket : ℕ)
  /-- Another part of the page sends a control frame. -/
  | control (socket type epoch : ℕ) (payload : Bytes)
  /-- Captured samples are sent. -/
  | capture (epoch firstSampleIndex : ℕ) (samples : List UInt32)
  /-- A reset of the bridge is asked for. -/
  | requestBridgeReset
  /-- It was granted on a socket, which is closed. -/
  | resetGranted (socket : ℕ)
  /-- The page goes on in another epoch, before its session does. -/
  | enterEpoch (epoch : ℕ)
  /-- The page and its session go on in another epoch. -/
  | renew (epoch : ℕ)
  /-- A new session is made. -/
  | configure
  /-- A session that was disposed of goes on. -/
  | linger (index : ℕ) (action : Action)
  /-- The session is looked at. -/
  | refresh
  /-- The modem could not play a unit. -/
  | markDegraded
  /-- A script of the page offers a packet to the bridge. -/
  | offer (packet : Bytes)
  /-- The modem heard a unit. -/
  | unit (unit : Fas1Unit)
  /-- The session goes on by itself, or is started. -/
  | act (action : Action)
  deriving DecidableEq, Repr

variable (options : AcousticSessionOptions)

/-- A binary message of the current socket. -/
def handleBinary (readings : Readings) (isOpen : Bool) (socket : ℕ) (data : Bytes) (refused : Bool)
    (page : Page) : Page :=
  match readFwavMessageType data with
  | .error _ => failBridge isOpen socket page
  | .ok type =>
    if type = 9 then handlePacket options readings isOpen socket data page
    else if (type = 8 ∨ type = 4) ∧ !refused then page
    else failBridge isOpen socket page

/-- One step of a page; the current socket may be open. -/
def pageStep (readings : Readings) (isOpen : Bool) (page : Page) : PageEvent → Page
  | .openFreshBridge => openFreshBridge page
  | .opened socket => sendControl socket 1 page.epoch [] page
  | .binary socket data refused =>
    if page.bridge = some socket then handleBinary options readings isOpen socket data refused page
    else page
  | .capability socket epoch bytes =>
    if page.bridge = some socket then handleCapability isOpen socket epoch bytes page else page
  | .text socket refused => if refused then failBridge isOpen socket page else page
  | .failed socket => failBridge isOpen socket page
  | .control socket type epoch payload =>
    if type ∈ otherControls then sendControl socket type epoch payload page else page
  | .capture epoch firstSampleIndex samples =>
    match page.bridge with
    | none => page
    | some socket =>
      if isOpen then
        { page.hand socket (pcmCaptureFrame epoch page.bridgeSequence firstSampleIndex samples) with
          bridgeSequence := page.bridgeSequence + 1 }
      else page
  | .requestBridgeReset => closePackets isOpen page
  | .resetGranted socket =>
    { page with
      bridge := if page.bridge = some socket then none else page.bridge
      bridgeSequence := 0 }
  | .enterEpoch epoch => { page with epoch }
  | .configure => configureAcousticSession options readings isOpen page
  | .linger index action => linger options readings index action page
  | .renew epoch =>
    let page := { page with epoch }
    let invalid := invalidate isOpen page
    { invalid with session := act options readings (.reset epoch) invalid.session }
  | .refresh => refresh isOpen page
  | .markDegraded =>
    let disarmed := disarm isOpen page.session.link.epoch page
    { disarmed with session := act options readings .markHeartbeatMissed disarmed.session }
  | .offer packet =>
    let page := { page with log := page.log ++ [.offered packet] }
    match sendPacket isOpen packet page with
    | .ok page => page
    | .error _ => page
  | .unit unit => hearUnit options readings isOpen unit page
  | .act action =>
    match action with
    | .enqueuePacket _ _ => page
    | action => { page with session := act options readings action page.session }

end Sockets

end Fipwave.BrowserPage
