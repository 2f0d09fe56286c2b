import Fipwave.PageSessions
import Fipwave.PacketCarriage
import Fipwave.TransportOrder
import Fipwave.WorkerLink

/-!
# Packets from one FIPS worker to the other

On each side a FIPS worker queues packets in its transport, a bridge passes
messages on between the transport and a page, and the page offers packets to
its acoustic session; the two pages hear each other. Every connection of this
whole may lose, repeat and reorder what is sent on it, sockets come and go, and
a page may make its session anew, whose packets are numbered from one again.
Still a transport delivers nothing to its worker but packets that the
transport of the other side has queued, bytes for bytes, and those that a script
of its own page has offered.
-/

namespace Fipwave.PacketJourney

open ByteWords TransitionRun FwavProtocol AcousticProtocol AcousticHandshake AcousticState
  AcousticSession AcousticLink DeliveryMachine DeliveryRefinement PacketDelivery PacketOrder
  AcceptedPackets BridgePorts PacketCarriage WorkerNews FipsTransport TransportOrder BrowserPage
  PageTraffic PageSessions FwavRoundTrip
open BridgeMethods (BridgeServerOptions)

/-- One side. -/
structure Host where
  /-- The transport of the worker. -/
  transport : SoundTransport
  /-- The bridge. -/
  bridge : BridgeServer.World
  /-- The page. -/
  page : Page

/-- Both sides. -/
abbrev Journey := PerRole Host

section Host

/-- Packets in a log of a transport that were queued. -/
def queuedData : Entry → Option Bytes
  | .queued _ _ _ data _ => some data
  | _ => none

/-- Packets in a log of a transport that were delivered. -/
def deliveredData : Entry → Option Bytes
  | .delivered _ _ data => some data
  | _ => none

/-- Messages in a log of a page that were handed to a socket. -/
def handedData : PageNote → Option Bytes
  | .handed _ message => some message
  | _ => none

/-- Packets in a log of a page that a script offered. -/
def offeredData : PageNote → Option Bytes
  | .offered packet => some packet
  | _ => none

/-- What arrives of a message of the bridge. -/
def binaryOf (message : Outbound) : Option Bytes :=
  match arrival message with
  | .binary encoded => some encoded
  | _ => none

variable (h : Host)

/-- Packets the worker has queued. -/
def Host.queued : List Bytes := h.transport.log.filterMap queuedData

/-- Packets the worker was delivered. -/
def Host.delivered : List Bytes := h.transport.log.filterMap deliveredData

/-- Packets a script of the page has offered. -/
def Host.offered : List Bytes := h.page.log.filterMap offeredData

/-- Units the sessions of the page have handed to the modem. -/
def Host.units : List Fas1Unit := h.page.sessions.flatMap (·.io.sent)

/-- Messages an endpoint has sent to the bridge. -/
def Host.toBridge : Endpoint → List Bytes
  | .browser => h.page.log.filterMap handedData
  | .fips => (h.transport.log.filterMap writtenFrame).map (·.bytes)

/-- Binary messages the bridge has sent on a socket of an endpoint. -/
def Host.fromBridge (endpoint : Endpoint) (socket : ℕ) : List Bytes :=
  if (h.bridge.state.ports.sockets socket).endpoint = endpoint then
    (h.bridge.state.ports.sockets socket).sent.filterMap binaryOf
  else []

end Host

/-- What happens at one side. -/
inductive HostEvent where
  /-- The worker or the task of the transport does something. -/
  | transport (action : FipsTransport.Action)
  /-- Something happens at the bridge. -/
  | bridge (event : BridgeServer.Event)
  /-- Something happens at the page, which may have an open socket. -/
  | page (readings : Readings) (isOpen : Bool) (event : PageEvent)
  /-- A message of an endpoint reaches a socket of the bridge. -/
  | toBridge (socket index : ℕ)
  /-- A message of the bridge reaches the transport; its channel may be full. -/
  | toTransport (socket index : ℕ) (full : Bool)
  /-- A message of the bridge reaches a socket of the page, which may refuse it. -/
  | toPage (readings : Readings) (isOpen : Bool) (socket index pageSocket : ℕ) (refused : Bool)
  /-- A unit of the other side reaches the page. -/
  | air (readings : Readings) (isOpen : Bool) (index : ℕ)

/-- Actions of a transport that bring no message. -/
def ownAction : FipsTransport.Action → Bool
  | .task (.receive _ _) => false
  | _ => true

/-- Events of a bridge that bring no binary message. -/
def ownEvent : BridgeServer.Event → Bool
  | .receive _ message => !message.isBinary
  | _ => true

/-- Events of a page that bring neither a binary message nor a unit. -/
def ownPageEvent : PageEvent → Bool
  | .binary _ _ _ => false
  | .unit _ => false
  | _ => true

variable (options : AcousticSessionOptions) (settings : BridgeServerOptions) (units : List Fas1Unit)

/-- The page of a side goes on. -/
def Host.turn (readings : Readings) (isOpen : Bool) (event : PageEvent) (h : Host) : Host :=
  { h with page := pageStep options readings isOpen h.page event }

/-- What a page makes of an event, if it concerns the page. -/
def pageEvent (h : Host) : HostEvent → Option (Readings × Bool × PageEvent)
  | .page readings isOpen event =>
    if ownPageEvent event then some (readings, isOpen, event) else none
  | .toPage readings isOpen socket index pageSocket refused =>
    (h.fromBridge .browser socket)[index]?.map
      (fun data => (readings, isOpen, .binary pageSocket data refused))
  | .air readings isOpen index =>
    units[index]?.map (fun unit => (readings, isOpen, .unit unit))
  | _ => none

/-- One step of a side, when the other side has sent some units; what does not apply does
nothing. -/
def hostStep (h : Host) (event : HostEvent) : Host :=
  match pageEvent units h event with
  | some (readings, isOpen, event) => h.turn options readings isOpen event
  | none =>
    match event with
    | .transport action =>
      if ownAction action then { h with transport := FipsTransport.step h.transport action } else h
    | .bridge event =>
      if ownEvent event then { h with bridge := BridgeServer.step settings h.bridge event } else h
    | .toBridge socket index =>
      match (h.toBridge (h.bridge.state.ports.sockets socket).endpoint)[index]? with
      | none => h
      | some data =>
        { h with bridge := BridgeServer.step settings h.bridge (.receive socket ⟨true, data⟩) }
    | .toTransport socket index full =>
      match (h.fromBridge .fips socket)[index]? with
      | none => h
      | some encoded =>
        { h with transport := FipsTransport.step h.transport (.task (.receive encoded full)) }
    | _ => h

/-- Options of both sides. -/
structure JourneyOptions where
  /-- Of the sessions. -/
  link : LinkOptions
  /-- Of the bridges. -/
  bridges : PerRole BridgeServerOptions
  /-- Of the transports. -/
  workers : PerRole SoundConfig

/-- One step of one side. -/
def journeyStep (o : JourneyOptions) (j : Journey) (event : AcousticRole × HostEvent) : Journey :=
  j.set (hostStep (o.link.of event.1) (o.bridges.get event.1)
    (j.get (complement event.1)).units (j.get event.1) event.2) event.1

/-- A side that begins. -/
def newHost (o : JourneyOptions) (role : AcousticRole) : Host :=
  { transport := made (o.workers.get role)
    bridge := BridgeServer.createBridgeServer (o.bridges.get role)
    page := { session := initialSession role } }

/-- Both sides as they begin. -/
def departure (o : JourneyOptions) : Journey := ⟨newHost o .a, newHost o .b⟩

/-- Both sides after a run. -/
def travelled (o : JourneyOptions) (events : List (AcousticRole × HostEvent)) : Journey :=
  run (journeyStep o) (departure o) events

/-- Events that bring a message of the bridge to a page. -/
def toPage : HostEvent → Bool
  | .toPage _ _ _ _ _ _ => true
  | _ => false

/-- A message of the bridge reaches a page only while the counter of its session is below its last
value, and while the identifier of the session is none under which a session before has accepted a
packet. -/
def FreshlyNumbered (j : Journey) (event : AcousticRole × HostEvent) : Prop :=
  toPage event.2 = true → (j.get event.1).page.session.delivery.packetId ≠ uint32Max ∧
    ∀ a ∈ (pastOf (j.get event.1).page.disposed).accepted,
      (j.get event.1).page.session.link.sessionId ≠ some a.sessionId

instance (j : Journey) (event : AcousticRole × HostEvent) : Decidable (FreshlyNumbered j event) :=
  inferInstanceAs (Decidable (_ → _))

section Frames

variable {encoded : Bytes} {frame : FwavFrame}

/-- The payload of a decoded frame is the bytes behind the header. -/
theorem payload_of_decode (h : decodeFrame encoded = .ok frame) :
    frame.payload = encoded.drop headerBytes := by
  have haccepted := (decodeFrame_ok_iff _ _).mp h
  rw [haccepted.read]
  rfl

/-- A message with a packet is of the kind of packets. -/
theorem packet_in {packet : FwavFrame} (h : packetIn encoded = some packet) :
    wordAt encoded 5 1 = 9 ∧ packet.payload = encoded.drop headerBytes := by
  obtain ⟨hdecoded, htype⟩ := packetIn_eq_some h
  have hkind := code_of_messageTypeOf ((decodeFrame_ok_iff _ _).mp hdecoded).type
  rw [htype] at hkind
  exact ⟨hkind, payload_of_decode hdecoded⟩

/-- What arrives and is of the kind of packets is a packet of the bridge. -/
theorem packet_of_arrival {message : Outbound} (h : binaryOf message = some encoded)
    (hkind : wordAt encoded 5 1 = 9) :
    ∃ packet, packetOf message = some packet ∧ packet.payload = encoded.drop headerBytes := by
  have harrival : arrival message = .binary encoded := by
    unfold binaryOf at h
    split at h
    · next bytes hbytes => rw [hbytes, Option.some.inj h]
    · cases h
  cases message with
  | frame frame =>
    have hencoded := encodeFrame_of_arrival harrival
    have htype : frame.type = .fipsPacket := by
      have hcode := kind_encodeFrame hencoded
      rw [hkind] at hcode
      cases htype : frame.type <;> rw [htype] at hcode <;> first | rfl | cases hcode
    obtain ⟨hvalid, hbytes⟩ := encodeFrame_ok hencoded
    have hdecoded := decodeFrame_frameBytes hvalid.withDefaults (withDefaults_withDefaults frame)
    rw [← hbytes] at hdecoded
    have hpayload : (withDefaults frame).payload = encoded.drop headerBytes :=
      payload_of_decode hdecoded
    exact ⟨frame, packetOf_frame htype, hpayload⟩
  | playback bytes =>
    obtain ⟨frame, hdecoded, hplayback⟩ := decodeFrame_of_arrival harrival
    have hcode := code_of_messageTypeOf ((decodeFrame_ok_iff _ _).mp hdecoded).type
    rw [hkind, hplayback] at hcode
    cases hcode
  | _ => cases harrival

end Frames

section Transport

/-- What an action may log: a packet that is delivered is one of a message that arrives. -/
def Grounded (action : FipsTransport.Action) : Entry → Prop
  | .delivered _ _ data => ∃ encoded full, action = .task (.receive encoded full) ∧
    wordAt encoded 5 1 = 9 ∧ data = encoded.drop headerBytes
  | _ => True

/-- A transport has logged nothing more but what an action may log. -/
def Logs (action : FipsTransport.Action) (t t' : SoundTransport) : Prop :=
  ∃ entries, t'.log = t.log ++ entries ∧ ∀ entry ∈ entries, Grounded action entry

variable {action : FipsTransport.Action} {t t' : SoundTransport}

/-- A step that writes nothing to the log is grounded. -/
theorem logs_same (h : t'.log = t.log) : Logs action t t' :=
  ⟨[], by rw [h, List.append_nil], fun entry hentry => absurd hentry List.not_mem_nil⟩

/-- A step that writes one grounded entry is grounded. -/
theorem logs_entry {entry : Entry} (hentry : Grounded action entry)
    (h : t'.log = t.log ++ [entry]) : Logs action t t' := by
  refine ⟨[entry], h, fun other hother => ?_⟩
  rw [List.mem_singleton.mp hother]
  exact hentry

/-- A frame that is handed to the socket may be the last one. -/
theorem logs_wrote (socket : Serving) (frame : OutboundFrame) (lookedAt : ℕ) (whole : Bool) :
    Logs action t (wrote socket frame lookedAt whole t) := by
  have hwritten : Grounded action (.written frame lookedAt) := trivial
  have hclosed : Grounded action .closed := trivial
  cases whole with
  | true => exact logs_entry hwritten rfl
  | false =>
    refine ⟨[.written frame lookedAt, .closed], List.append_assoc _ _ _, fun entry hentry => ?_⟩
    rcases List.mem_pair.mp hentry with rfl | rfl
    · exact hwritten
    · exact hclosed

/-- A packet that a message brings is all of the message after its header. -/
theorem entry_injectInbound {mtu : ℕ} {full : Bool} {encoded : Bytes} {r : Runtime} {entry : Entry}
    (h : (injectInbound mtu full encoded r).entry = some entry) :
    Grounded (.task (.receive encoded full)) entry := by
  cases entry with
  | delivered epoch sequence data =>
    refine ⟨encoded, full, rfl, ?_⟩
    unfold injectInbound at h
    split at h
    · cases h
    · dsimp only at h
      split at h
      · unfold injectReset at h
        split at h <;> cases h
      · split at h
        · unfold injectControl injectArm injectDisarm at h
          split_ifs at h <;> cases h
        · split at h
          · unfold injectAdmission at h
            split_ifs at h <;> cases h
          · unfold injectPacket at h
            split at h
            · cases h
            · next hpacket =>
              have hkind : wordAt encoded 5 1 = 9 := by
                by_contra hother
                exact hpacket (.inl hother)
              split_ifs at h <;> cases h
              exact ⟨hkind, rfl⟩
  | _ => trivial

/-- Every step of the worker's task writes only what its action accounts for. -/
theorem logs_taskStep (action : TaskAction) : Logs (.task action) t (taskStep t action) := by
  have hopened : Grounded (.task action) .opened := trivial
  have hclosed : Grounded (.task action) .closed := trivial
  unfold taskStep
  split
  · exact logs_entry hopened rfl
  · exact logs_same rfl
  · unfold account
    split
    · exact logs_same rfl
    · dsimp only
      split <;> exact logs_same rfl
  · exact logs_wrote _ _ _ _
  · next channel queue encoded full _ =>
    refine ⟨(injectInbound t.config.mtu full encoded t.runtime).entry.toList, rfl,
      fun entry hentry => ?_⟩
    exact entry_injectInbound (Option.mem_toList.mp hentry)
  · exact logs_same rfl
  · exact logs_entry hclosed rfl
  · exact logs_same rfl
  · exact logs_same rfl
  · split
    · exact logs_entry hclosed rfl
    · exact logs_same rfl
  · split
    · exact logs_entry hclosed rfl
    · exact logs_same rfl
  · exact logs_same rfl
  · exact logs_same rfl
  · exact logs_same rfl
  · exact logs_same rfl

/-- A send writes at most the packet it was asked to send. -/
theorem logs_sendClassified (addr : String) (data : Bytes) (trafficClass : TrafficClass) (now : ℕ) :
    Logs action t (sendClassified addr data trafficClass now t).2 := by
  unfold sendClassified
  split
  · exact logs_same rfl
  · split
    · exact logs_same rfl
    · split
      · exact logs_same rfl
      · split
        · exact logs_same rfl
        · split
          · exact logs_same rfl
          · unfold FipsTransport.enqueue
            dsimp only
            split
            · exact logs_same rfl
            · split
              · exact logs_same rfl
              · have hqueued : Grounded action (.queued t.runtime.epoch
                    ((t.runtime.nextSequence + 1) % 2 ^ 64) trafficClass data now) := trivial
                exact logs_entry hqueued rfl

/-- One step of a transport logs nothing but what its action may log. -/
theorem logs_step (action : FipsTransport.Action) (t : SoundTransport) :
    Logs action t (FipsTransport.step t action) := by
  unfold FipsTransport.step
  split
  · exact logs_same rfl
  · split
    · unfold startAsync
      split <;> exact logs_same rfl
    · next failure _ =>
      cases failure <;> exact logs_same rfl
    · exact logs_same rfl
    · split <;> exact logs_same rfl
    · exact logs_same rfl
    · exact logs_sendClassified _ _ _ _
    · exact logs_taskStep _
    · exact logs_same rfl

end Transport

section Rooted

/-- Packets a worker may be delivered: those queued at the other side, and those a script of the
page offers. -/
def Host.Arrives (peer : List Bytes) (h : Host) (data : Bytes) : Prop :=
  data ∈ peer ∨ data ∈ h.offered

/-- What the endpoints of a bridge give it. -/
def Host.source (peer : List Bytes) (h : Host) : Endpoint → FwavFrame → Prop
  | .browser, frame => h.Arrives peer frame.payload
  | .fips, frame => frame.payload ∈ h.queued

/-- What holds of one side, when the other side has queued some packets. -/
structure Rooted (settings : BridgeServerOptions) (peer : List Bytes) (h : Host) : Prop where
  /-- The bridge passes on what its endpoints gave. -/
  bridge : PacketCarriage.Faithful (h.source peer) settings h.bridge
  /-- The sessions have accepted what the worker has queued. -/
  accepted : ∀ s ∈ h.page.sessions, ∀ a ∈ s.io.accepted, a.packet ∈ h.queued
  /-- The page hands on what may be delivered. -/
  handed : ∀ message ∈ h.toBridge .browser, wordAt message 5 1 = 9 →
    h.Arrives peer (message.drop headerBytes)
  /-- The transport writes what was queued. -/
  written : Ordered h.transport
  /-- It delivers what may be delivered. -/
  delivered : ∀ data ∈ h.delivered, h.Arrives peer data

variable {settings : BridgeServerOptions} {peer later : List Bytes} {h h' : Host}
  {options : AcousticSessionOptions} {units : List Fas1Unit}

/-- What has arrived stays arrived as the peer and the offers grow. -/
theorem Host.Arrives.mono {data : Bytes} (harrives : h.Arrives peer data) (hpeer : peer ⊆ later)
    (hoffered : h.offered ⊆ h'.offered) : h'.Arrives later data :=
  harrives.imp (fun hmem => hpeer hmem) (fun hmem => hoffered hmem)

/-- The endpoints give no less when more is queued and offered. -/
theorem source_mono (hpeer : peer ⊆ later) (hqueued : h.queued ⊆ h'.queued)
    (hoffered : h.offered ⊆ h'.offered) (endpoint : Endpoint) (frame : FwavFrame)
    (hsource : h.source peer endpoint frame) : h'.source later endpoint frame := by
  cases endpoint with
  | browser => exact Host.Arrives.mono hsource hpeer hoffered
  | fips => exact hqueued hsource

/-- The other side may queue more. -/
theorem Rooted.more (hrooted : Rooted settings peer h) (hpeer : peer ⊆ later) :
    Rooted settings later h where
  bridge := hrooted.bridge.mono (source_mono hpeer (fun _ => id) (fun _ => id))
  accepted := hrooted.accepted
  handed message hmessage hkind :=
    (hrooted.handed message hmessage hkind).mono hpeer (fun _ => id)
  written := hrooted.written
  delivered data hdata := (hrooted.delivered data hdata).mono hpeer (fun _ => id)

/-- What arrives from a bridge as a packet comes from the opposite endpoint. -/
theorem Rooted.fromBridge (hrooted : Rooted settings peer h) {endpoint : Endpoint} {socket : ℕ}
    {data : Bytes} (hdata : data ∈ h.fromBridge endpoint socket) (hkind : wordAt data 5 1 = 9) :
    ∃ packet, h.source peer (opposite endpoint) packet ∧
      packet.payload = data.drop headerBytes := by
  unfold Host.fromBridge at hdata
  split at hdata
  · next hendpoint =>
    obtain ⟨message, hsent, hbinary⟩ := List.mem_filterMap.mp hdata
    obtain ⟨packet, hpacket, hpayload⟩ := packet_of_arrival hbinary hkind
    have hsource := (hrooted.bridge.carried.sockets socket).sent message hsent packet hpacket
    rw [hendpoint] at hsource
    exact ⟨packet, hsource, hpayload⟩
  · exact absurd hdata List.not_mem_nil

theorem payload_encodePacket (epoch sequence : ℕ) (trafficClass : TrafficClass) (data : Bytes) :
    (encodePacket epoch sequence trafficClass data).drop headerBytes = data := rfl

/-- A message that an endpoint has sent bears a packet of the endpoint. -/
theorem Rooted.bears (hrooted : Rooted settings peer h) {endpoint : Endpoint} {data : Bytes}
    (hdata : data ∈ h.toBridge endpoint) : Bears (h.source peer endpoint) ⟨true, data⟩ := by
  intro _ packet hpacket
  obtain ⟨hkind, hpayload⟩ := packet_in hpacket
  cases endpoint with
  | browser =>
    have harrives := hrooted.handed data hdata hkind
    rw [← hpayload] at harrives
    exact harrives
  | fips =>
    obtain ⟨frame, hframe, rfl⟩ := List.mem_map.mp hdata
    have hqueued : frame ∈ h.transport.log.filterMap queuedFrame :=
      ((List.sublist_append_left _ _).trans hrooted.written).subset hframe
    obtain ⟨entry, hentry, hof⟩ := List.mem_filterMap.mp hqueued
    cases entry with
    | queued epoch sequence trafficClass packetData now =>
      have hsame : packet.payload = packetData := by
        rw [hpayload, ← Option.some.inj hof]
        exact payload_encodePacket epoch sequence trafficClass packetData
      refine List.mem_filterMap.mpr ⟨_, hentry, ?_⟩
      rw [hsame]
      rfl
    | _ => cases hof

/-- What was queued stays queued when the transport goes on. -/
theorem queued_transport (action : FipsTransport.Action) (h : Host) :
    h.queued ⊆ Host.queued { h with transport := FipsTransport.step h.transport action } := by
  obtain ⟨entries, hlog, -⟩ := logs_step action h.transport
  unfold Host.queued
  dsimp only
  rw [hlog, List.filterMap_append]
  exact List.subset_append_left _ _

/-- The transport goes on: what it is brought has arrived, so what it delivers has. -/
theorem Rooted.transport (hrooted : Rooted settings peer h) (action : FipsTransport.Action)
    (hbrought : ∀ encoded full, action = .task (.receive encoded full) → wordAt encoded 5 1 = 9 →
      h.Arrives peer (encoded.drop headerBytes)) :
    Rooted settings peer { h with transport := FipsTransport.step h.transport action } := by
  obtain ⟨entries, hlog, hgrounded⟩ := logs_step action h.transport
  have hqueued := queued_transport action h
  refine ⟨hrooted.bridge.mono (source_mono (fun _ => id) hqueued (fun _ => id)),
    fun s hs a ha => hqueued (hrooted.accepted s hs a ha), hrooted.handed,
    ordered_move (TransportMoves.move_step action) hrooted.written, fun data hdata => ?_⟩
  obtain ⟨entry, hentry, hof⟩ := List.mem_filterMap.mp hdata
  dsimp only at hentry
  rw [hlog] at hentry
  rcases List.mem_append.mp hentry with hold | hnew
  · exact hrooted.delivered data (List.mem_filterMap.mpr ⟨entry, hold, hof⟩)
  · have hone := hgrounded entry hnew
    cases entry with
    | delivered epoch sequence packet =>
      obtain ⟨encoded, full, haction, hkind, hpacket⟩ := hone
      rw [← Option.some.inj hof, hpacket]
      exact hbrought encoded full haction hkind
    | _ => cases hof

/-- The bridge goes on: what it is brought comes from its sources. -/
theorem Rooted.onward (hrooted : Rooted settings peer h) {event : BridgeServer.Event}
    (hbrings : Brings (h.source peer) h.bridge event) :
    Rooted settings peer { h with bridge := BridgeServer.step settings h.bridge event } :=
  ⟨PacketCarriage.faithful_step hrooted.bridge hbrings, hrooted.accepted, hrooted.handed,
    hrooted.written, hrooted.delivered⟩

/-- One event of the page keeps everything rooted. What its session accepts or hands over anew is
the packet of that event. -/
theorem Rooted.turn (hrooted : Rooted settings peer h) (readings : Readings) (isOpen : Bool)
    {event : PageEvent}
    (hbrought : ∀ socket data refused, event = .binary socket data refused →
      wordAt data 5 1 = 9 → data.drop headerBytes ∈ h.queued)
    (hpackets : ∀ d ∈ (h.turn options readings isOpen event).page.session.io.packets,
      d.packet ∈ peer) :
    Rooted settings peer (h.turn options readings isOpen event) := by
  obtain ⟨notes, hlog, hnotes⟩ := notes_step options readings isOpen event h.page
  have hoffered : h.offered ⊆ (h.turn options readings isOpen event).offered := by
    unfold Host.offered Host.turn
    dsimp only
    rw [hlog, List.filterMap_append]
    exact List.subset_append_left _ _
  refine ⟨hrooted.bridge.mono (source_mono (fun _ => id) (fun _ => id) hoffered),
    fun s hs a ha => ?_, fun message hmessage hkind => ?_, hrooted.written,
    fun data hdata => (hrooted.delivered data hdata).mono (fun _ => id) hoffered⟩
  · rcases (becomes_step options readings isOpen event h.page).accepted s hs a ha with
      ⟨before, hbefore, hold⟩ | ⟨socket, data, refused, hevent, hkind, hpacket⟩
    · exact hrooted.accepted before hbefore a hold
    · rw [hpacket]
      exact hbrought socket data refused hevent hkind
  · obtain ⟨note, hnote, hof⟩ := List.mem_filterMap.mp hmessage
    have hmem : note ∈ h.page.log ++ notes := hlog ▸ hnote
    rcases List.mem_append.mp hmem with hold | hnew
    · have harrives := hrooted.handed message (List.mem_filterMap.mpr ⟨note, hold, hof⟩) hkind
      exact harrives.mono (fun _ => id) hoffered
    · have hone := hnotes note hnew
      cases note with
      | handed socket handed =>
        obtain rfl := Option.some.inj hof
        rcases hone hkind with ⟨d, hd, hpacket⟩ | hevent
        · rw [← hpacket]
          exact .inl (hpackets d hd)
        · refine .inr (List.mem_filterMap.mpr ⟨.offered (handed.drop headerBytes), ?_, rfl⟩)
          unfold Host.turn
          dsimp only
          rw [hevent]
          exact offered_noted _ _
      | asked socket epoch position => cases hof
      | offered packet => cases hof

/-- What a page makes of an event is an event of its own, or it brings a message that the bridge
has sent to a browser, or a unit of the other side. -/
theorem pageEvent_cases {event : HostEvent} {readings : Readings} {isOpen : Bool}
    {inner : PageEvent} (hevent : pageEvent units h event = some (readings, isOpen, inner)) :
    ownPageEvent inner = true ∨
      (∃ k socket data refused, inner = .binary socket data refused ∧ toPage event = true ∧
        data ∈ h.fromBridge .browser k) ∨
      ∃ unit ∈ units, inner = .unit unit := by
  cases event with
  | page r i e =>
    simp only [pageEvent, Option.ite_none_right_eq_some, Option.some.injEq, Prod.mk.injEq] at hevent
    obtain ⟨hown, -, -, rfl⟩ := hevent
    exact .inl hown
  | toPage r i k index s f =>
    simp only [pageEvent, Option.map_eq_some_iff, Prod.mk.injEq] at hevent
    obtain ⟨message, hmessage, -, -, rfl⟩ := hevent
    exact .inr (.inl ⟨k, s, message, f, rfl, rfl, List.mem_of_getElem? hmessage⟩)
  | air r i index =>
    simp only [pageEvent, Option.map_eq_some_iff, Prod.mk.injEq] at hevent
    obtain ⟨unit, hunit, -, -, rfl⟩ := hevent
    exact .inr (.inr ⟨unit, List.mem_of_getElem? hunit, rfl⟩)
  | _ => cases hevent

/-- A message that reaches a page was sent by the bridge to a browser. -/
theorem binary_of_pageEvent {event : HostEvent} {readings : Readings} {isOpen refused : Bool}
    {socket : ℕ} {data : Bytes}
    (hevent : pageEvent units h event = some (readings, isOpen, .binary socket data refused)) :
    toPage event = true ∧ ∃ k, data ∈ h.fromBridge .browser k := by
  rcases pageEvent_cases hevent with
    hown | ⟨k, pageSocket, message, f, hinner, hbrings, hmessage⟩ | ⟨unit, -, hinner⟩
  · cases hown
  · cases hinner
    exact ⟨hbrings, k, hmessage⟩
  · cases hinner

/-- A unit that reaches a page was sent by the other side. -/
theorem unit_of_pageEvent {event : HostEvent} {readings : Readings} {isOpen : Bool}
    {unit : Fas1Unit} (hevent : pageEvent units h event = some (readings, isOpen, .unit unit)) :
    unit ∈ units := by
  rcases pageEvent_cases hevent with
    hown | ⟨k, socket, message, refused, hinner, -, -⟩ | ⟨other, hother, hinner⟩
  · cases hown
  · cases hinner
  · cases hinner
    exact hother

/-- One step of a side, if the packets its session has handed over by then are packets of the
other side. -/
theorem Rooted.step (hrooted : Rooted settings peer h) (event : HostEvent)
    (hpackets : ∀ d ∈ (hostStep options settings units h event).page.session.io.packets,
      d.packet ∈ peer) : Rooted settings peer (hostStep options settings units h event) := by
  unfold hostStep at hpackets ⊢
  split at hpackets
  · next readings isOpen inner hevent =>
    refine hrooted.turn readings isOpen (fun socket data refused hbinary hkind => ?_) hpackets
    rw [hbinary] at hevent
    obtain ⟨-, k, hdata⟩ := binary_of_pageEvent hevent
    obtain ⟨packet, hsource, hpayload⟩ := hrooted.fromBridge hdata hkind
    rw [← hpayload]
    exact hsource
  · cases event with
    | transport action =>
      dsimp only
      split
      · next hown =>
        refine hrooted.transport action (fun encoded full haction => ?_)
        rw [haction] at hown
        cases hown
      · exact hrooted
    | bridge event =>
      dsimp only
      split
      · next hown =>
        refine hrooted.onward ?_
        cases event with
        | receive socket message =>
          intro hbinary
          simp [ownEvent, hbinary] at hown
        | _ => trivial
      · exact hrooted
    | toBridge socket index =>
      dsimp only
      split
      · exact hrooted
      · next data hdata => exact hrooted.onward (hrooted.bears (List.mem_of_getElem? hdata))
    | toTransport socket index full =>
      dsimp only
      split
      · exact hrooted
      · next encoded hencoded =>
        refine hrooted.transport _ (fun other otherFull haction hkind => ?_)
        cases haction
        obtain ⟨packet, hsource, hpayload⟩ :=
          hrooted.fromBridge (List.mem_of_getElem? hencoded) hkind
        rw [← hpayload]
        exact hsource
    | _ => exact hrooted

variable (options settings units h) in
/-- Only what a page makes of an event changes its sessions. -/
theorem page_hostStep (event : HostEvent) :
    (hostStep options settings units h event).page = h.page ∨
      ∃ readings isOpen inner, pageEvent units h event = some (readings, isOpen, inner) ∧
        (hostStep options settings units h event).page =
          pageStep options readings isOpen h.page inner := by
  unfold hostStep
  split
  · next readings isOpen inner hevent => exact .inr ⟨readings, isOpen, inner, hevent, rfl⟩
  · refine .inl ?_
    split
    · split <;> rfl
    · split <;> rfl
    · split <;> rfl
    · split <;> rfl
    · rfl

/-- What was queued stays queued. -/
theorem queued_hostStep (event : HostEvent) :
    h.queued ⊆ (hostStep options settings units h event).queued := by
  unfold hostStep
  split
  · exact fun _ => id
  · split
    · split
      · exact queued_transport _ h
      · exact fun _ => id
    · split <;> exact fun _ => id
    · split <;> exact fun _ => id
    · split
      · exact fun _ => id
      · exact queued_transport _ h
    · exact fun _ => id

end Rooted

/-- The two current sessions. -/
def sessions (j : Journey) : PerRole AcousticSession := ⟨j.a.page.session, j.b.page.session⟩

/-- What the sessions before have sent and accepted at a side. -/
def before (j : Journey) (role : AcousticRole) : Traffic := pastOf (j.get role).page.disposed

section Journey

variable {o : JourneyOptions} {j : Journey}

/-- The session of a role is the one its page holds. -/
theorem sessions_get (j : Journey) (role : AcousticRole) :
    (sessions j).get role = (j.get role).page.session := by
  cases role <;> rfl

/-- Replacing a host replaces the session of its role. -/
theorem sessions_set (j : Journey) (h : Host) (role : AcousticRole) :
    sessions (j.set h role) = (sessions j).set h.page.session role := by
  cases role <;> rfl

/-- A step of one side changes what was before at that side alone. -/
theorem before_set (j : Journey) (h : Host) (role : AcousticRole) :
    before (j.set h role) = Function.update (before j) role (pastOf h.page.disposed) := by
  funext other
  by_cases hrole : other = role
  · subst hrole
    rw [before, PerRole.get_set_same, Function.update_self]
  · rw [before, PerRole.get_set, if_neg hrole, Function.update_of_ne hrole, before]

/-- The units of a side are those of its sessions before and of its current one. -/
theorem mem_units {role : AcousticRole} {unit : Fas1Unit} (h : unit ∈ (j.get role).units) :
    unit ∈ (total (before j) (sessions j) role).sent := by
  obtain ⟨s, hs, hsent⟩ := List.mem_flatMap.mp h
  rcases List.mem_append.mp hs with hs | hs
  · exact List.mem_append_left _ (List.mem_flatMap.mpr ⟨s, hs, hsent⟩)
  · refine List.mem_append_right _ ?_
    rw [List.mem_singleton.mp hs, ← sessions_get] at hsent
    exact hsent

/-- What holds of both sides. -/
structure Traced (o : JourneyOptions) (j : Journey) : Prop where
  /-- The sessions convey what was accepted. -/
  conveys : Conveys (before j) (sessions j)
  /-- Those that were disposed of are in order. -/
  disposed : ∀ role, ∀ s ∈ (j.get role).page.disposed, Orderly role s
  /-- Each side is rooted in the other one. -/
  rooted : ∀ role, Rooted (o.bridges.get role) (j.get (complement role)).queued (j.get role)

/-- What a step does to the sessions of the side that takes it. -/
theorem becomes_journeyStep (event : AcousticRole × HostEvent) (hfresh : FreshlyNumbered j event) :
    ((journeyStep o j event).get event.1).page = (j.get event.1).page ∨
      ∃ readings inner,
        Becomes (o.link.of event.1) readings (j.get event.1).page.session
          (j.get event.1).page.disposed inner ((journeyStep o j event).get event.1).page.session
          ((journeyStep o j event).get event.1).page.disposed ∧
        (∀ socket data refused, inner = .binary socket data refused →
          (j.get event.1).page.session.delivery.packetId ≠ uint32Max ∧
            ∀ a ∈ (before j event.1).accepted,
              (j.get event.1).page.session.link.sessionId ≠ some a.sessionId) ∧
        ∀ unit, inner = .unit unit → unit ∈ (j.get (complement event.1)).units := by
  obtain ⟨role, event⟩ := event
  unfold journeyStep
  dsimp only
  rw [PerRole.get_set_same]
  rcases page_hostStep (o.bridges.get role) (j.get role) (o.link.of role)
    (j.get (complement role)).units event with hsame | ⟨readings, isOpen, inner, hevent, hpage⟩
  · exact .inl hsame
  · refine .inr ⟨readings, inner, ?_, fun socket data refused hbinary => ?_, fun unit hunit => ?_⟩
    · rw [hpage]
      exact becomes_step (o.link.of role) readings isOpen inner (j.get role).page
    · rw [hbinary] at hevent
      exact hfresh (binary_of_pageEvent hevent).1
    · rw [hunit] at hevent
      exact unit_of_pageEvent hevent

/-- The sessions after one step convey what was accepted. A step moves one host, and either its
session hears the other or a new one takes its place. -/
theorem conveys_journeyStep (h : Traced o j) (event : AcousticRole × HostEvent)
    (hfresh : FreshlyNumbered j event) :
    Conveys (before (journeyStep o j event)) (sessions (journeyStep o j event)) ∧
      ∀ role, ∀ s ∈ ((journeyStep o j event).get role).page.disposed, Orderly role s := by
  have hbecomes := becomes_journeyStep (o := o) event hfresh
  obtain ⟨role, event⟩ := event
  have hcurrent := h.conveys.orderly role
  rw [sessions_get] at hcurrent
  unfold journeyStep at hbecomes ⊢
  dsimp only at hbecomes ⊢
  generalize hostStep _ _ _ _ _ = later at hbecomes ⊢
  rw [PerRole.get_set_same] at hbecomes
  rw [sessions_set, before_set]
  have hother : ∀ other, other ≠ role →
      ∀ s ∈ ((j.set later role).get other).page.disposed, Orderly other s := by
    intro other hne
    rw [PerRole.get_set, if_neg hne]
    exact h.disposed other
  rcases hbecomes with hsame | ⟨readings, inner, hbecomes, hfresh, hunit⟩
  · refine ⟨?_, fun other => ?_⟩
    · rw [hsame]
      change Conveys (Function.update (before j) role (before j role)) _
      rw [Function.update_eq_self, ← sessions_get]
      have hset : (sessions j).set ((sessions j).get role) role = sessions j := by
        cases role <;> rfl
      rw [hset]
      exact h.conveys
    · by_cases hrole : other = role
      · subst hrole
        rw [PerRole.get_set_same, hsame]
        exact h.disposed other
      · exact hother other hrole
  · refine ⟨?_, fun other => ?_⟩
    · rw [← sessions_get] at hbecomes hfresh
      exact conveys_becomes h.conveys rfl (h.disposed role) hbecomes hfresh
        (fun unit hevent => mem_units (hunit unit hevent))
    · by_cases hrole : other = role
      · subst hrole
        rw [PerRole.get_set_same]
        exact orderly_becomes (h.disposed other) hcurrent hbecomes
      · exact hother other hrole

/-- One step of one side keeps every packet traced to where it came from. -/
theorem traced_step (event : AcousticRole × HostEvent) (hfresh : FreshlyNumbered j event)
    (h : Traced o j) : Traced o (journeyStep o j event) := by
  obtain ⟨hconveys, hdisposed⟩ := conveys_journeyStep h event hfresh
  refine ⟨hconveys, hdisposed, fun role => ?_⟩
  obtain ⟨acting, event⟩ := event
  by_cases hrole : role = acting
  · subst hrole
    have hpackets : ∀ d ∈ ((journeyStep o j (role, event)).get role).page.session.io.packets,
        d.packet ∈ (j.get (complement role)).queued := by
      intro d hd
      rw [← sessions_get] at hd
      obtain ⟨a, ha, -, -, hpacket⟩ := (hconveys.genuine role).packets d hd
      have haccepted : ∃ s ∈ (j.get (complement role)).page.sessions, a ∈ s.io.accepted := by
        unfold total before at ha
        rw [sessions_get, journeyStep, PerRole.get_set_complement] at ha
        rcases List.mem_append.mp ha with ha | ha
        · obtain ⟨s, hs, hmem⟩ := List.mem_flatMap.mp ha
          exact ⟨s, List.mem_append_left _ hs, hmem⟩
        · exact ⟨_, List.mem_append_right _ List.mem_cons_self, ha⟩
      obtain ⟨s, hs, hmem⟩ := haccepted
      have hqueued := (h.rooted (complement role)).accepted s hs a hmem
      rwa [hpacket] at hqueued
    unfold journeyStep at hpackets ⊢
    dsimp only at hpackets ⊢
    rw [PerRole.get_set_same] at hpackets ⊢
    rw [PerRole.get_set_complement]
    exact (h.rooted role).step event hpackets
  · obtain rfl := eq_complement_of_ne hrole
    have hother := h.rooted (complement acting)
    unfold journeyStep
    dsimp only
    rw [complement_complement] at hother ⊢
    rw [PerRole.get_set_same, PerRole.get_set_complement]
    exact hother.more (queued_hostStep event)

/-- At the departure no packet is under way. -/
theorem traced_departure (o : JourneyOptions) : Traced o (departure o) := by
  have hnew : ∀ role, (departure o).get role = newHost o role := by
    intro role
    cases role <;> rfl
  have hbefore : before (departure o) = noPast := by
    funext role
    rw [before, hnew]
    rfl
  have hconveys : Conveys (before (departure o)) (sessions (departure o)) := by
    rw [hbefore]
    exact (faithful_initial o.link).conveys
  refine ⟨hconveys, fun role s hs => ?_, fun role => ?_⟩
  · rw [hnew] at hs
    cases hs
  rw [hnew role]
  refine ⟨faithful_createBridgeServer _, ?_, ?_, List.Sublist.refl _, ?_⟩
  · intro s hs a ha
    rw [List.mem_singleton.mp hs] at ha
    cases ha
  · intro message hmessage
    cases hmessage
  · intro data hdata
    cases hdata

/-- Whatever the connections lose, repeat and reorder, whichever sockets come and go, however often
a page makes its session anew and whatever else happens at either side: in every run that does not
use up the packet identifiers of a session, and in which a page offers no packet to a session that
goes by the identifier of one before, every packet a transport delivers to its worker is one the
transport of the other side has queued, with exactly its bytes, or one that a script of its own
page has offered. -/
theorem delivered_traced (o : JourneyOptions) (events : List (AcousticRole × HostEvent))
    (h : Along (journeyStep o) FreshlyNumbered (departure o) events) (role : AcousticRole) :
    ∀ data ∈ ((travelled o events).get role).delivered,
      data ∈ ((travelled o events).get (complement role)).queued ∨
        data ∈ ((travelled o events).get role).offered := by
  have htraced : Traced o (travelled o events) :=
    invariant_along (journeyStep o) (fun _ event hfresh hj => traced_step event hfresh hj)
      (traced_departure o) h
  exact (htraced.rooted role).delivered

end Journey

section Bench

/-- Both sides on a bench. -/
def benchJourney : JourneyOptions where
  link := benchLink
  bridges := ⟨BridgeMoves.benchBridge, BridgeMoves.benchBridge⟩
  workers := ⟨WorkerLink.benchWorker, WorkerLink.benchWorker⟩

/-- What a page of the bench reads at one of its starts, each of which draws new nonces. -/
def benchDraws (start : ℕ) (role : AcousticRole) : Readings :=
  { benchReadings role with
    nonce := List.replicate 15 (UInt8.ofNat start) ++
      [match role with
        | .a => 2
        | .b => 4] }

/-- Something happens at a page of the bench. -/
def benchPage (start : ℕ) (role : AcousticRole) (event : PageEvent) : AcousticRole × HostEvent :=
  (role, .page (benchDraws start role) true event)

/-- A unit of the other side reaches a page of the bench; some were sent before the start. -/
def benchAir (start : ℕ) (role : AcousticRole) (index : ℕ) : AcousticRole × HostEvent :=
  let sent := match start, role with
    | 1, _ => 0
    | _, .a => 6
    | _, .b => 8
  (role, .air (benchDraws start role) true (sent + index))

/-- A transport connects to its bridge. -/
def benchConnect (role : AcousticRole) : List (AcousticRole × HostEvent) :=
  [(role, .transport .start), (role, .transport (.startDone none)),
    (role, .transport (.task .serve)), (role, .bridge .connectFips)]

/-- A page starts its modem: it connects to its bridge and makes its session anew. -/
def benchStart (start : ℕ) (role : AcousticRole) (hello : ℕ) (capability : Bytes) :
    List (AcousticRole × HostEvent) :=
  [benchPage start role (.enterEpoch start), (role, .bridge .connectBrowser),
    (role, .bridge (.resume 0 .resolved)), benchPage start role .openFreshBridge,
    benchPage start role (.opened start), (role, .toBridge start hello),
    (role, .bridge (.process start)), benchPage start role (.capability start start capability),
    benchPage start role .configure, benchPage start role (.renew start)]

/-- The two sessions become ready. -/
def benchNegotiate (start : ℕ) : List (AcousticRole × HostEvent) :=
  let page := benchPage start
  let air := benchAir start
  [page .a (.act .start), air .b 0, air .a 0, air .b 1, air .a 1, air .b 2, air .a 2, air .a 3,
    air .b 3, page .b (.act (.work false)), page .b (.act (.work false)), air .a 4,
    page .a (.act (.work false)), page .a (.act (.work false)), air .b 4, air .b 5, air .a 5]

/-- The transport of a side learns that its page is ready. -/
def benchArmSide (start : ℕ) (role : AcousticRole) (ready arm : ℕ) :
    List (AcousticRole × HostEvent) :=
  [(role, .toBridge start ready), (role, .bridge (.process start)), (role, .toTransport 0 arm false)]

/-- A packet goes from one worker to the other. -/
def benchPacketOver (start : ℕ) (packet : Bytes) (written handed carried : ℕ) :
    List (AcousticRole × HostEvent) :=
  [(.a, .transport (.send "sound-a" packet .ordinary 0)), (.a, .transport (.task .take)),
    (.a, .transport (.task (.account 0))), (.a, .transport (.task (.wrote true))),
    (.a, .toBridge 0 written), (.a, .bridge (.process 0)),
    (.a, .toPage (benchDraws start .a) true start 0 start false), benchAir start .b 6,
    (.b, .toBridge start handed), (.b, .bridge (.process start)),
    (.b, .bridge (.resume 0 .resolved)), (.b, .toTransport 0 carried false)]

/-- A page has its bridge reset, and all of its side learn of it. -/
def benchReset (role : AcousticRole) (disarm : ℕ) : List (AcousticRole × HostEvent) :=
  [benchPage 1 role .requestBridgeReset, benchPage 1 role (.control 1 8 1 []),
    (role, .toBridge 1 3), (role, .bridge (.process 1)), (role, .toBridge 1 4),
    (role, .bridge (.process 1)), (role, .bridge (.resume 0 .resolved)),
    (role, .bridge (.beginWrite 1)), (role, .bridge (.endWrite 1 true)),
    (role, .bridge (.resume 0 .resolved)), (role, .bridge (.resume 0 .resolved)),
    (role, .toTransport 0 disarm false), (role, .toTransport 0 (disarm + 1) false),
    (role, .transport (.task .drained)), benchPage 1 role (.resetGranted 1),
    (role, .bridge (.closed 1))]

/-- A packet goes over, both bridges are reset, and with new sessions another packet goes over. -/
def benchTravel : List (AcousticRole × HostEvent) :=
  benchConnect .a ++ benchConnect .b ++
    benchStart 1 .a 0 (List.replicate 16 1) ++ benchStart 1 .b 0 (List.replicate 16 1) ++
    benchNegotiate 1 ++ benchArmSide 1 .a 1 0 ++ benchArmSide 1 .b 1 0 ++
    benchPacketOver 1 [7] 0 2 1 ++ benchReset .a 1 ++ benchReset .b 2 ++
    benchStart 2 .a 5 (List.replicate 16 3) ++ benchStart 2 .b 5 (List.replicate 16 3) ++
    benchNegotiate 2 ++ benchArmSide 2 .a 6 3 ++ benchArmSide 2 .b 6 4 ++
    benchPacketOver 2 [8] 1 7 5

set_option maxRecDepth 8000 in
/-- On the bench the worker of B is delivered both packets that the worker of A queued, though
both were numbered one. -/
theorem delivered_traced_bench :
    ((travelled benchJourney benchTravel).b.delivered = [[7], [8]] ∧
      (travelled benchJourney benchTravel).b.offered = [] ∧
      (travelled benchJourney benchTravel).a.page.sessions.map
        (fun s => s.io.accepted.map (·.packetId)) = [[], [1], [1]]) ∧
      ∀ data ∈ (travelled benchJourney benchTravel).b.delivered,
        data ∈ (travelled benchJourney benchTravel).a.queued ∨
          data ∈ (travelled benchJourney benchTravel).b.offered := by
  have hfresh : Along (journeyStep benchJourney) FreshlyNumbered (departure benchJourney)
      benchTravel := by decide +kernel
  have hdelivered : (travelled benchJourney benchTravel).b.delivered = [[7], [8]] ∧
      (travelled benchJourney benchTravel).b.offered = [] ∧
      (travelled benchJourney benchTravel).a.page.sessions.map
        (fun s => s.io.accepted.map (·.packetId)) = [[], [1], [1]] := by decide +kernel
  exact ⟨hdelivered, delivered_traced benchJourney benchTravel hfresh .b⟩

end Bench

end Fipwave.PacketJourney
