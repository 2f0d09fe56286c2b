import Fipwave.FwavRoundTrip
import Fipwave.PacketForwarding
import Fipwave.SentMessages

/-!
# Where the packets of a bridge come from

A bridge makes no packets. Each endpoint is a source of packets, those of the
messages it sends to the bridge; every packet that waits in the bridge comes
from one endpoint, and every packet the bridge sends to an endpoint comes from
the other one. Who handles a message of a browser may wait in between, so the
messages of those who wait count as well.
-/

namespace Fipwave.PacketCarriage

open ByteWords FwavProtocol FwavRoundTrip AsyncMethod BridgePorts BridgeMethods BridgeServer
  PortMoves BridgeMoves ReadinessMoves
open BrowserReadiness (openOwner_eq_some)
open PacketForwarding (benchStream)
open TransitionRun (run run_append)

/-- The packet that an encoded frame carries, if it carries one. -/
def packetIn (encoded : Bytes) : Option FwavFrame :=
  match decodeFrame encoded with
  | .ok frame => if frame.type = .fipsPacket then some frame else none
  | .error _ => none

/-- The packet that a message of the bridge carries, if it carries one. -/
def packetOf : Outbound → Option FwavFrame
  | .frame frame => if frame.type = .fipsPacket then some frame else none
  | _ => none

/-- The endpoint at the other side. -/
def opposite : Endpoint → Endpoint
  | .browser => .fips
  | .fips => .browser

variable (source : Endpoint → FwavFrame → Prop)

/-- The packet of a message comes from a source. -/
def Bears (source : FwavFrame → Prop) (message : RawMessage) : Prop :=
  message.isBinary = true → ∀ packet, packetIn message.rawData = some packet → source packet

/-- The packets of a socket come from where they should. -/
structure Spoken (k : Socket) : Prop where
  /-- It is sent what the other endpoint gave. -/
  sent : ∀ message ∈ k.sent, ∀ packet, packetOf message = some packet →
    source (opposite k.endpoint) packet
  /-- What it sent is its own. -/
  inbox : ∀ message ∈ k.inbox, Bears (source k.endpoint) message
  /-- The packet its handler is in the middle of is one of a browser. -/
  underway : ∀ frame, k.underway = .packet frame → source .browser frame

/-- The packets that wait come from where they should. -/
structure Held (p : Ports) : Prop where
  /-- Packets to the worker. -/
  toFips : ∀ entry ∈ p.browserToFips.frames, source .browser entry.frame
  /-- Packets to the browser. -/
  toBrowser : ∀ entry ∈ p.fipsToBrowser.frames, source .fips entry.frame
  /-- The packet that waits for an answer. -/
  pending : ∀ pending, p.pendingBrowserAdmission = some pending →
    source .fips pending.entry.frame

/-- The packets of the ports come from where they should. -/
structure Carried (p : Ports) : Prop where
  /-- Those that wait. -/
  held : Held source p
  /-- Those of the sockets. -/
  sockets : ∀ k, Spoken source (p.sockets k)
  /-- The owner of the browser endpoint is a browser. -/
  owner : ∀ k, p.owner = some k → k < p.socketCount ∧ (p.sockets k).endpoint = .browser
  /-- The owner of the FIPS endpoint is a worker. -/
  fipsOwner : ∀ k, p.fipsOwner = some k → k < p.socketCount ∧ (p.sockets k).endpoint = .fips

/-- Sockets are still what they were, and packets come from where they should. -/
structure Passed (p q : Ports) : Prop where
  /-- Sockets stay. -/
  count : p.socketCount ≤ q.socketCount
  /-- They serve the same endpoint. -/
  endpoint : ∀ k < p.socketCount, (q.sockets k).endpoint = (p.sockets k).endpoint
  /-- The packets come from where they should. -/
  carried : Carried source q

/-- Where packets come from where they should they still do so. -/
def Passes (p q : Ports) : Prop := Carried source p → Passed source p q

section Frames

variable {encoded : Bytes} {frame : FwavFrame}

/-- A frame that is decoded as a packet is the packet of its bytes. -/
theorem packetIn_of_decode (h : decodeFrame encoded = .ok frame)
    (htype : frame.type = .fipsPacket) : packetIn encoded = some frame := by
  rw [packetIn, h]
  exact if_pos htype

/-- The packet of some bytes is what they are decoded as. -/
theorem packetIn_eq_some {packet : FwavFrame} (h : packetIn encoded = some packet) :
    decodeFrame encoded = .ok packet ∧ packet.type = .fipsPacket := by
  unfold packetIn at h
  split at h
  · next frame hdecoded =>
    rw [Option.ite_none_right_eq_some] at h
    rw [← Option.some.inj h.2]
    exact ⟨hdecoded, h.1⟩
  · cases h

/-- A packet the bridge sends is the packet of that message. -/
theorem packetOf_frame (htype : frame.type = .fipsPacket) :
    packetOf (.frame frame) = some frame := if_pos htype

/-- A frame carries no packet but itself. -/
theorem eq_of_packetOf {packet : FwavFrame} (h : packetOf (.frame frame) = some packet) :
    packet = frame := by
  simp only [packetOf, Option.ite_none_right_eq_some, Option.some.injEq] at h
  exact h.2.symm

/-- Frames of the other types carry no packet. -/
theorem packetOf_other (htype : frame.type ≠ .fipsPacket) : packetOf (.frame frame) = none :=
  if_neg htype

end Frames

section Passes

variable {source} {p q r : Ports}

/-- A message whose packet comes from a source comes from every source that gives more. -/
theorem Bears.mono {P Q : FwavFrame → Prop} {message : RawMessage} (h : Bears P message)
    (hPQ : ∀ packet, P packet → Q packet) : Bears Q message :=
  fun hbinary packet hpacket => hPQ packet (h hbinary packet hpacket)

/-- Sources may give more. -/
theorem Carried.mono {source' : Endpoint → FwavFrame → Prop} (h : Carried source p)
    (hmore : ∀ endpoint packet, source endpoint packet → source' endpoint packet) :
    Carried source' p where
  held :=
    { toFips := fun entry hentry => hmore _ _ (h.held.toFips entry hentry)
      toBrowser := fun entry hentry => hmore _ _ (h.held.toBrowser entry hentry)
      pending := fun pending hpending => hmore _ _ (h.held.pending pending hpending) }
  sockets k :=
    { sent := fun message hm packet hpacket =>
        hmore _ _ ((h.sockets k).sent message hm packet hpacket)
      inbox := fun message hm => ((h.sockets k).inbox message hm).mono (hmore _)
      underway := fun frame hframe => hmore _ _ ((h.sockets k).underway frame hframe) }
  owner := h.owner
  fipsOwner := h.fipsOwner

theorem Passes.refl (p : Ports) : Passes source p p := fun hp => ⟨le_rfl, fun _ _ => rfl, hp⟩

theorem Passed.trans (hpq : Passed source p q) (hqr : Passed source q r) : Passed source p r where
  count := hpq.count.trans hqr.count
  endpoint k hk := (hqr.endpoint k (hk.trans_le hpq.count)).trans (hpq.endpoint k hk)
  carried := hqr.carried

theorem Passes.trans (hpq : Passes source p q) (hqr : Passes source q r) : Passes source p r :=
  fun hp => (hpq hp).trans (hqr (hpq hp).carried)

/-- No packets wait. -/
theorem held_empty (htoFips : p.browserToFips.frames = [])
    (htoBrowser : p.fipsToBrowser.frames = [])
    (hpending : p.pendingBrowserAdmission = none) : Held source p := by
  refine ⟨?_, ?_, ?_⟩
  · rw [htoFips]
    exact fun _ hentry => by cases hentry
  · rw [htoBrowser]
    exact fun _ hentry => by cases hentry
  · rw [hpending]
    exact fun _ hsome => by cases hsome

/-- A change in which no endpoint gets an owner. -/
theorem passes_of (hcount : q.socketCount = p.socketCount)
    (hendpoint : ∀ k, (q.sockets k).endpoint = (p.sockets k).endpoint)
    (howner : ∀ k, q.owner = some k → p.owner = some k)
    (hfips : ∀ k, q.fipsOwner = some k → p.fipsOwner = some k)
    (hheld : Carried source p → Held source q)
    (hsockets : Carried source p → ∀ k, Spoken source (q.sockets k)) : Passes source p q := by
  intro h
  refine ⟨hcount.ge, fun k _ => hendpoint k, hheld h, hsockets h, fun k hk => ?_, fun k hk => ?_⟩
  · rw [hcount, hendpoint]
    exact h.owner k (howner k hk)
  · rw [hcount, hendpoint]
    exact h.fipsOwner k (hfips k hk)

/-- A change of what waits passes packets on if it adds none. -/
theorem passes_of_held (hsockets : q.sockets = p.sockets) (hcount : q.socketCount = p.socketCount)
    (howner : ∀ k, q.owner = some k → p.owner = some k)
    (hfips : ∀ k, q.fipsOwner = some k → p.fipsOwner = some k)
    (hheld : Held source p → Held source q) : Passes source p q :=
  passes_of hcount (fun k => by rw [hsockets]) howner hfips (fun h => hheld h.held)
    (fun h k => by rw [hsockets]; exact h.sockets k)

/-- A change of figures passes packets on, since it touches none. -/
theorem passes_noted (hsockets : q.sockets = p.sockets) (hcount : q.socketCount = p.socketCount)
    (howner : q.owner = p.owner) (hfips : q.fipsOwner = p.fipsOwner)
    (htoFips : q.browserToFips = p.browserToFips) (htoBrowser : q.fipsToBrowser = p.fipsToBrowser)
    (hpending : q.pendingBrowserAdmission = p.pendingBrowserAdmission) : Passes source p q := by
  refine passes_of_held hsockets hcount (fun k hk => howner ▸ hk) (fun k hk => hfips ▸ hk)
    (fun h => ⟨?_, ?_, ?_⟩)
  · rw [htoFips]
    exact h.toFips
  · rw [htoBrowser]
    exact h.toBrowser
  · rw [hpending]
    exact h.pending

/-- A change of one socket passes packets on if it keeps its endpoint and all it has said. -/
theorem passes_modifySocket {socket : ℕ} {f : Socket → Socket}
    (hendpoint : ∀ k, (f k).endpoint = k.endpoint)
    (hf : Carried source p → Spoken source (f (p.sockets socket))) :
    Passes source p (modifySocket socket f p) := by
  refine passes_of rfl (view_modifySocket Socket.endpoint hendpoint socket p) (fun _ => id)
    (fun _ => id) (fun h => ⟨h.held.toFips, h.held.toBrowser, h.held.pending⟩) (fun h k => ?_)
  rw [sockets_modifySocket]
  split
  · exact hf h
  · exact h.sockets k

/-- A change of one socket that brings in no packet. -/
theorem passes_keep {socket : ℕ} {f : Socket → Socket}
    (hendpoint : ∀ k, (f k).endpoint = k.endpoint)
    (hsent : ∀ k, (f k).sent = k.sent) (hinbox : ∀ k, ∀ message ∈ (f k).inbox, message ∈ k.inbox)
    (hunderway : ∀ k frame, (f k).underway = .packet frame → k.underway = .packet frame) :
    Passes source p (modifySocket socket f p) := by
  refine passes_modifySocket hendpoint (fun h => ⟨?_, ?_, ?_⟩)
  · rw [hsent, hendpoint]
    exact (h.sockets socket).sent
  · intro message hmessage
    rw [hendpoint]
    exact (h.sockets socket).inbox message (hinbox _ message hmessage)
  · intro frame hframe
    exact (h.sockets socket).underway frame (hunderway _ frame hframe)

/-- What a connection keeps for itself carries no packet. -/
theorem passes_modifyConnection (socket : ℕ) (f : BrowserConnectionState → BrowserConnectionState)
    (p : Ports) : Passes source p (modifyConnection socket f p) :=
  passes_keep (fun _ => rfl) (fun _ => rfl) (fun _ _ => id) (fun _ _ => id)

/-- A socket may be sent a packet that comes from the endpoint at the other side. -/
theorem Spoken.concat {k : Socket} {message : Outbound} (h : Spoken source k)
    (hmessage : ∀ packet, packetOf message = some packet → source (opposite k.endpoint) packet) :
    Spoken source { k with sent := k.sent ++ [message] } := by
  refine ⟨fun other hother packet hpacket => ?_, h.inbox, h.underway⟩
  rcases List.mem_append.mp hother with hother | hother
  · exact h.sent other hother packet hpacket
  · rw [List.mem_singleton.mp hother] at hpacket
    exact hmessage packet hpacket

/-- A message is sent to a socket once its packet comes from the endpoint at the other side. -/
theorem passes_send (socket : ℕ) {message : Outbound}
    (h : Carried source p → ∀ packet, packetOf message = some packet →
      source (opposite (p.sockets socket).endpoint) packet) :
    Passes source p (send socket message p) :=
  passes_modifySocket (fun _ => rfl) (fun hp => (hp.sockets socket).concat (h hp))

/-- A guarded send either throws and sends nothing or is a plain send. -/
theorem passes_trySend (options : PortOptions) (socket : ℕ) {message : Outbound}
    (h : Carried source p → ∀ packet, packetOf message = some packet →
      source (opposite (p.sockets socket).endpoint) packet) :
    Passes source p (trySend options socket message p).2 := by
  have hcount : Passes source p { p with sendCount := p.sendCount + 1 } :=
    passes_noted rfl rfl rfl rfl rfl rfl rfl
  unfold trySend
  dsimp only
  split
  · exact hcount
  · intro hp
    exact (hcount hp).trans (passes_send socket (fun _ => h hp) (hcount hp).carried)

/-- A message without a packet may be sent to anyone. -/
theorem passes_tell (socket : ℕ) {message : Outbound} (h : packetOf message = none) :
    Passes source p (send socket message p) :=
  passes_send socket (fun _ packet hpacket => by rw [h] at hpacket; cases hpacket)

/-- Every client is sent a message without a packet. -/
theorem passes_everyone (f : ℕ → Outbound) (chosen : ℕ → Bool) (hf : ∀ k, packetOf (f k) = none)
    (hcount : q.socketCount = p.socketCount) (howner : q.owner = p.owner)
    (hfips : q.fipsOwner = p.fipsOwner) (htoFips : q.browserToFips = p.browserToFips)
    (htoBrowser : q.fipsToBrowser = p.fipsToBrowser)
    (hpending : q.pendingBrowserAdmission = p.pendingBrowserAdmission)
    (hsockets : ∀ k, q.sockets k = if chosen k then
      { p.sockets k with sent := (p.sockets k).sent ++ [f k] } else p.sockets k) :
    Passes source p q := by
  refine passes_of hcount (fun k => ?_) (fun k hk => howner ▸ hk) (fun k hk => hfips ▸ hk)
    (fun h => ⟨?_, ?_, ?_⟩) (fun h k => ?_)
  · rw [hsockets]
    split <;> rfl
  · rw [htoFips]
    exact h.held.toFips
  · rw [htoBrowser]
    exact h.held.toBrowser
  · rw [hpending]
    exact h.held.pending
  · rw [hsockets]
    split
    · refine (h.sockets k).concat (fun packet hpacket => ?_)
      rw [hf k] at hpacket
      cases hpacket
    · exact h.sockets k

/-- What every client is told carries no packet. -/
theorem passes_broadcast {message : Outbound} (h : packetOf message = none) (p : Ports) :
    Passes source p (broadcast message p) :=
  passes_everyone (fun _ => message) (fun k => (p.sockets k).attached && isOpen k p) (fun _ => h)
    rfl rfl rfl rfl rfl rfl (fun _ => rfl)

end Passes

section Relays

variable {source} {options : PortOptions} {p q : Ports}

/-- The published state carries no packet. -/
theorem passes_refreshState (p : Ports) : Passes source p (refreshState p) :=
  passes_noted rfl rfl rfl rfl rfl rfl rfl

/-- The relay's own record of a packet is no packet. -/
theorem passes_record (events : List RelayEvent) (p : Ports) : Passes source p (record events p) :=
  passes_noted rfl rfl rfl rfl rfl rfl rfl

/-- Once no answer is waited for, the packet that waited for it is still in its queue. -/
theorem passes_clearPending (p : Ports) : Passes source p (clearPendingBrowserAdmission p) :=
  passes_of_held rfl rfl (fun _ => id) (fun _ => id)
    (fun h => ⟨h.toFips, h.toBrowser, fun _ hpending => by cases hpending⟩)

/-- No packets wait in queues that were cleared. -/
theorem passes_clearQueues (p : Ports) : Passes source p (clearQueues p) :=
  passes_of_held rfl rfl (fun _ => id) (fun _ => id) (fun _ => held_empty rfl rfl rfl)

/-- Fewer packets wait for the browser. -/
theorem passes_fewerToBrowser {queue : Queue}
    (h : ∀ entry ∈ queue.frames, entry ∈ p.fipsToBrowser.frames) :
    Passes source p { p with fipsToBrowser := queue } :=
  passes_of_held rfl rfl (fun _ => id) (fun _ => id)
    (fun hp => ⟨hp.toFips, fun entry hentry => hp.toBrowser entry (h entry hentry), hp.pending⟩)

/-- Fewer packets wait for the worker. -/
theorem passes_fewerToFips {queue : Queue}
    (h : ∀ entry ∈ queue.frames, entry ∈ p.browserToFips.frames) :
    Passes source p { p with browserToFips := queue } :=
  passes_of_held rfl rfl (fun _ => id) (fun _ => id)
    (fun hp => ⟨fun entry hentry => hp.toFips entry (h entry hentry), hp.toBrowser, hp.pending⟩)

/-- Packets that are too old leave the queue to the browser. -/
theorem passes_expireToBrowser (now : ℕ) (p : Ports) :
    Passes source p (expireToBrowser options now p) := by
  unfold expireToBrowser
  dsimp only
  split
  · have hcleared : Passes source p (clearPendingBrowserAdmission p) := passes_clearPending p
    have hdropped : Passes source (clearPendingBrowserAdmission p)
        { clearPendingBrowserAdmission p with
          fipsToBrowser := dropStale options.packetQueueLimits.maxAgeMs now p.fipsToBrowser } :=
      passes_fewerToBrowser (fun _ => mem_dropStale)
    exact (hcleared.trans hdropped).trans (passes_record _ _)
  · exact (passes_fewerToBrowser (fun _ => mem_dropStale)).trans (passes_record _ _)

/-- Packets that are too old leave the queue to the worker. -/
theorem passes_expireToFips (now : ℕ) (p : Ports) : Passes source p (expireToFips options now p) :=
  passes_fewerToFips (fun _ => mem_dropStale)

/-- A packet of a browser joins the queue to the worker, or there is no room for it. -/
theorem passes_enqueueToFips {frame : FwavFrame} (now : ℕ) (p : Ports)
    (hframe : source .browser frame) :
    Passes source p (leftPorts (enqueuePacket options .browserToFips frame now p)) := by
  have hexpired : Passes source p (expireToFips options now p) := passes_expireToFips now p
  unfold enqueuePacket
  dsimp only
  split
  · exact hexpired
  · refine hexpired.trans (passes_of rfl (fun _ => rfl) (fun _ => id) (fun _ => id)
      (fun h => ⟨fun entry hentry => ?_, h.held.toBrowser, h.held.pending⟩) Carried.sockets)
    rcases List.mem_append.mp hentry with hentry | hentry
    · exact h.held.toFips entry hentry
    · rw [List.mem_singleton.mp hentry]
      exact hframe

/-- A packet of the worker joins the queue to the browser, or there is no room for it. -/
theorem passes_enqueueToBrowser {frame : FwavFrame} (now : ℕ) (p : Ports)
    (hframe : source .fips frame) :
    Passes source p (leftPorts (enqueuePacket options .fipsToBrowser frame now p)) := by
  have hexpired : Passes source p (expireToBrowser options now p) := passes_expireToBrowser now p
  unfold enqueuePacket
  dsimp only
  split
  · exact hexpired
  · refine hexpired.trans (passes_of rfl (fun _ => rfl) (fun _ => id) (fun _ => id)
      (fun h => ⟨h.held.toFips, fun entry hentry => ?_, h.held.pending⟩) Carried.sockets)
    rcases List.mem_append.mp hentry with hentry | hentry
    · exact h.held.toBrowser entry hentry
    · rw [List.mem_singleton.mp hentry]
      exact hframe

variable (options) in
/-- A packet of the worker is offered to the browser. -/
theorem passes_offer {owner : ℕ} {frame : FwavFrame} (howner : p.owner = some owner)
    (hframe : source .fips frame) :
    Passes source p (trySend options owner (.frame frame) p).2 := by
  refine passes_trySend options owner (fun hp packet hpacket => ?_)
  rw [(hp.owner owner howner).2, eq_of_packetOf hpacket]
  exact hframe

/-- A packet is the one that waits for its answer. -/
theorem passes_pend (pending : PendingBrowserAdmission)
    (hpending : source .fips pending.entry.frame) (timers : List ℕ) (timerCount : ℕ) :
    Passes source p { p with
      pendingBrowserAdmission := some pending
      retryTimers := timers
      timerCount := timerCount } := by
  refine passes_of rfl (fun _ => rfl) (fun _ => id) (fun _ => id)
    (fun hp => ⟨hp.held.toFips, hp.held.toBrowser, fun other hother => ?_⟩) Carried.sockets
  rw [← Option.some.inj hother]
  exact hpending

/-- The packet that is offered to the browser is the first one of its queue. -/
theorem passes_flushToBrowser (p : Ports) : Passes source p (flushToBrowser options p) := by
  intro hp
  unfold flushToBrowser
  split
  · exact Passes.refl p hp
  · next owner howner =>
    split
    · exact Passes.refl p hp
    · split
      · exact Passes.refl p hp
      · split
        · exact passes_refreshState p hp
        · next entry rest hframes =>
          have hentry : source .fips entry.frame := by
            refine hp.held.toBrowser entry ?_
            rw [hframes]
            exact List.mem_cons_self
          have hsend : Passes source p (trySend options owner (.frame entry.frame) p).2 :=
            passes_offer options (openOwner_eq_some.mp howner).1 hentry
          split
          · next q hq =>
            rw [hq] at hsend
            exact hsend.trans (passes_refreshState q) hp
          · next q hq =>
            rw [hq] at hsend
            have hpend : Passes source q { q with
                pendingBrowserAdmission := some ⟨entry, owner, 1, none⟩ } :=
              passes_pend ⟨entry, owner, 1, none⟩ hentry q.retryTimers q.timerCount
            exact ((hsend.trans hpend).trans
              ((passes_record _ _).trans (passes_refreshState _))) hp

/-- The packet that is offered again is the one whose answer is waited for. -/
theorem passes_retry (timer : ℕ) (p : Ports) :
    Passes source p (retryBrowserAdmission options timer p) := by
  intro hp
  have herase : Passes source p { p with retryTimers := p.retryTimers.erase timer } :=
    passes_noted rfl rfl rfl rfl rfl rfl rfl
  unfold retryBrowserAdmission
  dsimp only
  split
  · exact herase hp
  · next pending hpending =>
    split
    · exact herase hp
    · next hcurrent =>
      rw [not_or, not_not] at hcurrent
      have hframe : source .fips pending.entry.frame := hp.held.pending pending hpending
      have hhold : Passes source p { p with
          pendingBrowserAdmission := some { pending with retryTimer := none }
          retryTimers := p.retryTimers.erase timer } :=
        passes_pend { pending with retryTimer := none } hframe _ _
      split
      · exact hhold hp
      · have hoffer := passes_offer options
          (p := { p with
            pendingBrowserAdmission := some { pending with retryTimer := none }
            retryTimers := p.retryTimers.erase timer }) hcurrent.1.symm hframe
        have hsend := hhold.trans hoffer
        split
        · next q hq =>
          rw [hq] at hsend
          exact hsend.trans (passes_refreshState q) hp
        · next q hq =>
          rw [hq] at hsend
          exact hsend.trans (passes_record _ q) hp

/-- Packets of the browser are sent to the worker. -/
theorem passes_forwardPackets {worker : ℕ} {entries : List QueueEntry}
    (howner : p.fipsOwner = some worker)
    (h : ∀ entry ∈ entries, source .browser entry.frame) :
    Passes source p (forwardPackets options worker entries p) := by
  induction entries generalizing p with
  | nil => exact passes_refreshState p
  | cons entry rest ih =>
    unfold forwardPackets
    dsimp only
    have hshift : Passes source p { p with browserToFips := shift p.browserToFips } :=
      passes_fewerToFips (fun _ => mem_shift)
    have hsend : Passes source { p with browserToFips := shift p.browserToFips }
        (trySend options worker (.frame entry.frame)
          { p with browserToFips := shift p.browserToFips }).2 := by
      refine passes_trySend options worker (fun hp packet hpacket => ?_)
      rw [(hp.fipsOwner worker howner).2, eq_of_packetOf hpacket]
      exact h entry List.mem_cons_self
    have hkeeps : (trySend options worker (.frame entry.frame)
        { p with browserToFips := shift p.browserToFips }).2.fipsOwner = p.fipsOwner := by
      unfold trySend
      dsimp only
      split <;> rfl
    split
    · next q hq =>
      rw [hq] at hsend
      exact (hshift.trans hsend).trans (passes_refreshState q)
    · next q hq =>
      rw [hq] at hsend hkeeps
      have hcounted : Passes source q { q with
          browserToFipsCounter := q.browserToFipsCounter + 1
          forwarded := q.forwarded ++ [(entry.frame.epoch, entry.frame.sequence)] } :=
        passes_noted rfl rfl rfl rfl rfl rfl rfl
      exact ((hshift.trans hsend).trans hcounted).trans
        (ih (hkeeps.trans howner) (fun other hother => h other (List.mem_cons_of_mem _ hother)))

variable (options) in
/-- The worker is sent the packets of its queue. -/
theorem passes_flushToFips (p : Ports) : Passes source p (flushToFips options p) := by
  intro hp
  unfold flushToFips
  split
  · exact Passes.refl p hp
  · next worker hworker =>
    exact passes_forwardPackets (openOwner_eq_some.mp hworker).1 hp.held.toFips hp

variable (options) in
/-- The worker is told what became of a packet, and not sent a packet. -/
theorem passes_notifyAdmission (packet : FwavFrame) (result : FipsPacketAdmission) (p : Ports) :
    Passes source p (notifyFipsPacketAdmission options packet result p) := by
  unfold notifyFipsPacketAdmission
  split
  · exact .refl p
  · refine passes_trySend options _ (fun _ other hother => ?_)
    rw [packetOf_other (by simp [admissionFrame])] at hother
    cases hother

/-- The first packet of the queue to the browser is taken off it. -/
theorem passes_shiftToBrowser (event : ℕ → RelayEvent) (entry : QueueEntry) (p : Ports) :
    Passes source p (shiftToBrowser event entry p) :=
  ((passes_fewerToBrowser (fun _ => mem_shift)).trans (passes_clearPending _)).trans
    (passes_record _ _)

/-- A packet that was accepted leaves its queue, and the next one is offered. -/
theorem passes_admissionAccepted (pending : PendingBrowserAdmission) (p : Ports) :
    Passes source p (admissionAccepted options pending p) := by
  unfold admissionAccepted
  split
  · exact ((passes_clearPending p).trans (passes_refreshState _)).trans (passes_flushToBrowser _)
  · dsimp only
    have hcounted : Passes source (shiftToBrowser .accepted pending.entry p)
        { shiftToBrowser .accepted pending.entry p with
          fipsToBrowserCounter :=
            (shiftToBrowser .accepted pending.entry p).fipsToBrowserCounter + 1 } :=
      passes_noted rfl rfl rfl rfl rfl rfl rfl
    have hshifted : Passes source p (shiftToBrowser .accepted pending.entry p) :=
      passes_shiftToBrowser .accepted pending.entry p
    have hnotified := (hshifted.trans hcounted).trans
      (passes_notifyAdmission options pending.entry.frame .accepted _)
    exact (hnotified.trans (passes_refreshState _)).trans (passes_flushToBrowser _)

/-- A packet the browser has no room for is offered again later, or dropped when it is too old. -/
theorem passes_admissionQueueFull {pending : PendingBrowserAdmission} (now : ℕ)
    (hpending : p.pendingBrowserAdmission = some pending) :
    Passes source p (leftPorts (admissionQueueFull options pending now p)) := by
  intro hp
  have hframe : source .fips pending.entry.frame := hp.held.pending pending hpending
  unfold admissionQueueFull
  dsimp only
  have hnotified : Passes source p (if pending.attempts = 1 then
      notifyFipsPacketAdmission options pending.entry.frame .queueFull p else p) := by
    split
    · exact passes_notifyAdmission options _ _ p
    · exact .refl p
  generalize (if pending.attempts = 1 then
    notifyFipsPacketAdmission options pending.entry.frame .queueFull p else p) = q at hnotified ⊢
  split
  · split
    · exact hnotified hp
    · have hshift := hnotified.trans (passes_shiftToBrowser .expired pending.entry q)
      exact ((hshift.trans (passes_refreshState _)).trans (passes_flushToBrowser _)) hp
  · have hpend : Passes source q { q with
        pendingBrowserAdmission := some { pending with
          attempts := pending.attempts + 1, retryTimer := some q.timerCount }
        retryTimers := q.retryTimers ++ [q.timerCount]
        timerCount := q.timerCount + 1 } :=
      passes_pend { pending with
        attempts := pending.attempts + 1, retryTimer := some q.timerCount } hframe _ _
    exact ((hnotified.trans hpend).trans (passes_refreshState _)) hp

/-- Whatever a browser answers, the packets that wait afterwards waited before. -/
theorem passes_acceptBrowserAdmission (socket : ℕ) (frame : FwavFrame) (now : ℕ) (p : Ports) :
    Passes source p (leftPorts (acceptBrowserAdmission options socket frame now p)) := by
  unfold acceptBrowserAdmission
  split
  · exact .refl p
  · next pending hpending =>
    split
    · exact .refl p
    · split
      · exact .refl p
      · split
        · exact .refl p
        · split
          · exact .refl p
          · exact passes_admissionAccepted _ p
          · exact passes_admissionQueueFull _ hpending

/-- A packet of a browser is queued for the worker and sent on at once if there is one. -/
theorem passes_acceptBrowserPacket {frame : FwavFrame} (now : ℕ) (p : Ports)
    (hframe : source .browser frame) :
    Passes source p (leftPorts (acceptBrowserPacket options frame now p)) := by
  unfold acceptBrowserPacket
  split
  · exact .refl p
  · have henqueue : Passes source p
        (leftPorts (enqueuePacket options .browserToFips frame now p)) :=
      passes_enqueueToFips now p hframe
    split
    · next thrown heq =>
      rw [heq] at henqueue
      exact henqueue
    · next q heq =>
      rw [heq] at henqueue
      exact henqueue.trans (passes_flushToFips options q)

end Relays

section Endpoints

variable {source} {options : PortOptions} {p q : Ports}

/-- The worker is told whether a browser is armed, and not sent a packet. -/
theorem passes_notify (armed : Bool) (p : Ports) :
    Passes source p (notifyFipsBrowserState armed p) := by
  unfold notifyFipsBrowserState
  split
  · refine passes_tell _ (packetOf_other ?_)
    cases armed <;> simp
  · exact .refl p

/-- Disarming tells the worker so and drops the packets that wait. -/
theorem passes_disarm (p : Ports) : Passes source p (disarmAcousticSession p) := by
  unfold disarmAcousticSession
  split
  · exact .refl p
  · have hended : Passes source p { p with acousticReady := false, armedBy := none } :=
      passes_noted rfl rfl rfl rfl rfl rfl rfl
    have hforgets : ∀ q : Ports, Passes source q { q with acousticReadinessProof := none } :=
      fun q => passes_noted rfl rfl rfl rfl rfl rfl rfl
    exact ((hended.trans (passes_notify false _)).trans (hforgets _)).trans (passes_clearQueues _)

/-- A capability is issued to a browser by a frame that is no packet. -/
theorem passes_issue (socket : ℕ) (p : Ports) :
    Passes source p (issueAcousticCapability options socket p) := by
  have hcounted : Passes source p { p with issueCount := p.issueCount + 1 } :=
    passes_noted rfl rfl rfl rfl rfl rfl rfl
  have hchanged := hcounted.trans (passes_modifyConnection socket (fun c => { c with
    acousticCapability := options.randomBytes p.issueCount
    acousticCapabilityUsed := false
    issue := some p.issueCount }) _)
  unfold issueAcousticCapability
  dsimp only
  split
  · exact hchanged.trans (passes_tell _ rfl)
  · exact hchanged

/-- A socket that is rejected begins to close. -/
theorem passes_rejectSocket (socket : ℕ) (p : Ports) : Passes source p (rejectSocket socket p) :=
  passes_keep (fun _ => rfl) (fun _ => rfl) (fun _ _ => id) (fun _ _ => id)

/-- A socket whose close was handled has said what it has said. -/
theorem passes_detach (socket : ℕ) (p : Ports) : Passes source p (detach socket p) :=
  passes_keep (fun _ => rfl) (fun _ => rfl) (fun _ _ => id) (fun _ _ => id)

/-- A handler that is done leaves nothing under way. -/
theorem passes_endUnderway (socket : ℕ) (p : Ports) : Passes source p (endUnderway socket p) :=
  passes_keep (fun _ => rfl) (fun _ => rfl) (fun _ _ => id) (fun _ _ h => by cases h)

/-- A worker that is gone leaves no packets behind in the queue to the browser. -/
theorem passes_closeFips (socket : ℕ) (p : Ports) : Passes source p (closeFips socket p) := by
  have hdetached : Passes source p (detach socket p) := passes_detach socket p
  unfold closeFips
  dsimp only
  split
  · refine hdetached.trans (passes_of_held rfl rfl (fun _ => id) (fun k hk => by cases hk) ?_)
    exact fun h => ⟨h.toFips, h.toBrowser, h.pending⟩
  · exact hdetached

/-- A browser that is gone gives up the endpoint it owned. -/
theorem passes_releaseOwner (p : Ports) : Passes source p (releaseOwner p) := by
  have hleft : Passes source (clearPendingBrowserAdmission p)
      { clearPendingBrowserAdmission p with owner := none } :=
    passes_of_held rfl rfl (fun k hk => by cases hk) (fun _ => id)
      (fun h => ⟨h.toFips, h.toBrowser, h.pending⟩)
  exact ((passes_clearPending p).trans hleft).trans (passes_disarm _)

/-- The close of a browser drops what waited for it, the owner or not. -/
theorem passes_closeBrowser (socket : ℕ) (p : Ports) :
    Passes source p (closeBrowser socket p).2 := by
  have hdetached : Passes source p (detach socket p) := passes_detach socket p
  have hreleased := hdetached.trans (passes_releaseOwner _)
  have hallows : ∀ q : Ports, Passes source q { q with
      reconnectAllowed := true, reconnectRequiresReset := true } :=
    fun q => passes_noted rfl rfl rfl rfl rfl rfl rfl
  unfold closeBrowser
  dsimp only
  split
  · exact hdetached
  · split
    · exact hreleased.trans (hallows _)
    · split
      · exact hreleased
      · exact hreleased.trans (hallows _)

/-- Arming tells the worker so, and carries no packet. -/
theorem passes_arm (socket : ℕ) (payload : Bytes) (p : Ports) :
    Passes source p (armAcousticSession socket payload p) := by
  have hready : ∀ (q : Ports) (issues : List ℕ), Passes source q { q with
      acousticReadinessProof := some payload
      acousticReady := true
      armedBy := some socket
      armings := issues } := fun q _ => passes_noted rfl rfl rfl rfl rfl rfl rfl
  unfold armAcousticSession
  exact ((passes_modifyConnection socket _ p).trans (hready _ _)).trans (passes_notify true _)

/-- A socket that is admitted has no messages yet. -/
theorem spoken_admitted {k : Socket} (hsent : k.sent = []) (hinbox : k.inbox = [])
    (hunderway : k.underway = .nothing) : Spoken source k := by
  refine ⟨?_, ?_, ?_⟩
  · rw [hsent]
    exact fun _ h => by cases h
  · rw [hinbox]
    exact fun _ h => by cases h
  · intro frame hframe
    rw [hunderway] at hframe
    cases hframe

/-- A socket comes in and may become an owner. -/
theorem passes_admit {k : Socket} (hk : Spoken source k)
    (hsockets : q.sockets = Function.update p.sockets p.socketCount k)
    (hcount : q.socketCount = p.socketCount + 1)
    (howner : ∀ i, q.owner = some i → p.owner = some i ∨ i = p.socketCount ∧ k.endpoint = .browser)
    (hfips : ∀ i, q.fipsOwner = some i →
      p.fipsOwner = some i ∨ i = p.socketCount ∧ k.endpoint = .fips)
    (hheld : Held source p → Held source q) : Passes source p q := by
  intro h
  have hold : ∀ i < p.socketCount, q.sockets i = p.sockets i := by
    intro i hi
    rw [hsockets, Function.update_of_ne hi.ne]
  have hnew : q.sockets p.socketCount = k := by
    rw [hsockets, Function.update_self]
  refine ⟨by omega, fun i hi => by rw [hold i hi], hheld h.held, fun i => ?_, fun i hi => ?_,
    fun i hi => ?_⟩
  · rw [hsockets, Function.update_apply]
    split
    · exact hk
    · exact h.sockets i
  · rcases howner i hi with hi | ⟨rfl, hendpoint⟩
    · obtain ⟨hlt, hendpoint⟩ := h.owner i hi
      rw [hold i hlt]
      exact ⟨by omega, hendpoint⟩
    · rw [hnew]
      exact ⟨by omega, hendpoint⟩
  · rcases hfips i hi with hi | ⟨rfl, hendpoint⟩
    · obtain ⟨hlt, hendpoint⟩ := h.fipsOwner i hi
      rw [hold i hlt]
      exact ⟨by omega, hendpoint⟩
    · rw [hnew]
      exact ⟨by omega, hendpoint⟩

/-- A browser that may not come in is sent an error and closed. -/
theorem passes_turnAway (p : Ports) : Passes source p (turnAway p) := by
  intro h
  have hk : Spoken source { p.sockets p.socketCount with readyState := .closing } :=
    ⟨(h.sockets p.socketCount).sent, (h.sockets p.socketCount).inbox,
      (h.sockets p.socketCount).underway⟩
  exact passes_admit hk rfl rfl (fun _ => .inl) (fun _ => .inl)
    (fun h => ⟨h.toFips, h.toBrowser, h.pending⟩) h

/-- A browser that comes in has been sent a hello at most. -/
theorem passes_connectBrowser (p : Ports) : Passes source p (connectBrowser options p) := by
  have hadmitted : Passes source p (admitBrowser p) := by
    refine passes_admit (spoken_admitted rfl rfl rfl) rfl rfl (fun i hi => .inr ⟨?_, rfl⟩)
      (fun _ => .inl) (fun h => ⟨h.toFips, h.toBrowser, h.pending⟩)
    exact (Option.some.inj hi).symm
  unfold connectBrowser
  split
  · exact passes_turnAway p
  · split
    · exact hadmitted.trans (passes_flushToBrowser _)
    · exact hadmitted

/-- A worker that comes in is told the epoch and whether a browser is armed. -/
theorem passes_connectFips (p : Ports) : Passes source p (connectFips options p) := by
  have hadmitted : Passes source p (admitFips p) := by
    refine passes_admit (spoken_admitted rfl rfl rfl) rfl rfl (fun _ => .inl)
      (fun i hi => .inr ⟨?_, rfl⟩) (fun h => ⟨h.toFips, h.toBrowser, h.pending⟩)
    exact (Option.some.inj hi).symm
  have hflushed := hadmitted.trans (passes_flushToFips options _)
  unfold connectFips
  dsimp only
  split
  · exact passes_turnAway p
  · split
    · exact hflushed.trans (passes_notify true _)
    · exact hflushed

/-- Whoever takes the bridge out of a state that needs a reset sends no packet. -/
theorem passes_recovers {a : Actor} {f : Ports → Ports} (hf : Recovers a f) (p : Ports) :
    Passes source p (f p) := by
  rcases hf with ⟨-, rfl⟩ | ⟨socket, frame, -, -, rfl⟩
  · exact .refl p
  · exact passes_modifyConnection socket _ p

/-- A reset clears the queues and brings no packet in. -/
theorem passes_resetPorts (a : Actor) (p : Ports) : Passes source p (resetPorts a p) := by
  have hrenewed : ∀ k : Socket, (renewSocket (p.epoch + 1) k).endpoint = k.endpoint ∧
      (renewSocket (p.epoch + 1) k).sent = k.sent ∧ (renewSocket (p.epoch + 1) k).inbox = k.inbox ∧
      (renewSocket (p.epoch + 1) k).underway = k.underway := by
    intro k
    unfold renewSocket
    split <;> simp
  have hempty : Held source (resetPorts a p) := held_empty rfl rfl rfl
  refine passes_of rfl (fun k => (hrenewed _).1) (fun _ => id) (fun _ => id) (fun _ => hempty)
    (fun h k => ?_)
  obtain ⟨hendpoint, hsent, hinbox, hunderway⟩ := hrenewed (p.sockets k)
  have hk := h.sockets k
  constructor
  · change ∀ message ∈ (renewSocket (p.epoch + 1) (p.sockets k)).sent, ∀ packet,
      packetOf message = some packet →
        source (opposite (renewSocket (p.epoch + 1) (p.sockets k)).endpoint) packet
    rw [hsent, hendpoint]
    exact hk.sent
  · change ∀ message ∈ (renewSocket (p.epoch + 1) (p.sockets k)).inbox,
      Bears (source (renewSocket (p.epoch + 1) (p.sockets k)).endpoint) message
    rw [hinbox, hendpoint]
    exact hk.inbox
  · intro frame hframe
    refine hk.underway frame ?_
    change (if handles a k then Underway.resetting
      else (renewSocket (p.epoch + 1) (p.sockets k)).underway) = .packet frame at hframe
    split at hframe
    · cases hframe
    · rw [← hunderway]
      exact hframe

/-- Every client learns of the new epoch by a frame that is no packet. -/
theorem passes_announceReset (a : Actor) (p : Ports) : Passes source p (announceReset a p) := by
  refine passes_everyone (fun k => .frame
      (resetFrame (if p.fipsOwner = some k then none else some resetAckFlag) p.epoch))
    (fun k => (p.sockets k).attached && isOpen k p) (fun _ => packetOf_other ?_)
    rfl rfl rfl rfl rfl rfl (fun _ => rfl)
  simp [resetFrame]

/-- A control frame joins the queue of the worker, in which no packet stands. -/
theorem passes_enqueue (frame : FwavFrame) (now : ℕ) (p : Ports) :
    Passes source p (leftPorts (enqueue frame now p)) := by
  unfold enqueue
  dsimp only
  split
  · exact .refl p
  · split <;> exact passes_noted rfl rfl rfl rfl rfl rfl rfl

end Endpoints

/-- The message an actor has at hand comes from where it should; who handles one handles that of a
browser. -/
structure Fed (a : Actor) (p : Ports) : Prop where
  /-- A message of a browser is handled. -/
  handler : ∀ socket message, a = .handler socket message →
    socket < p.socketCount ∧ (p.sockets socket).endpoint = .browser ∧
      Bears (source .browser) message
  /-- A message arrives. -/
  arrival : ∀ socket message, a = .arrival socket message →
    Bears (source (p.sockets socket).endpoint) message ∧ socket < p.socketCount

section Moves

variable {source} {options : PortOptions} {a : Actor} {p q : Ports}

/-- The message an actor has at hand still comes from where it should after others have acted. -/
theorem Fed.passed (h : Fed source a p) (hpq : Passed source p q) : Fed source a q where
  handler socket message ha := by
    obtain ⟨hlt, hendpoint, hbears⟩ := h.handler socket message ha
    exact ⟨hlt.trans_le hpq.count, (hpq.endpoint socket hlt).trans hendpoint, hbears⟩
  arrival socket message ha := by
    obtain ⟨hbears, hlt⟩ := h.arrival socket message ha
    rw [hpq.endpoint socket hlt]
    exact ⟨hbears, hlt.trans_le hpq.count⟩

/-- The packet of a message that is handled is one of a browser. -/
theorem Fed.packet (h : Fed source a p) {socket : ℕ} {frame : FwavFrame}
    (hcarries : Carries a socket frame) (htype : frame.type = .fipsPacket) :
    source .browser frame := by
  obtain ⟨rawData, ha, hdecoded⟩ := hcarries
  obtain ⟨-, -, hbears⟩ := h.handler socket _ ha
  exact hbears rfl _ (packetIn_of_decode hdecoded htype)

/-- A message that arrives waits in the inbox of its socket. -/
theorem passes_receiveMessage {socket : ℕ} {message : RawMessage}
    (h : Bears (source (p.sockets socket).endpoint) message) :
    Passes source p (receiveMessage socket message p) := by
  refine passes_modifySocket (fun _ => rfl) (fun hp => ⟨(hp.sockets socket).sent, ?_,
    (hp.sockets socket).underway⟩)
  intro other hother
  rcases List.mem_append.mp hother with hother | hother
  · exact (hp.sockets socket).inbox other hother
  · rw [List.mem_singleton.mp hother]
    exact h

/-- A packet whose sequence is taken is what its handler is in the middle of. -/
theorem passes_takeSequence {socket : ℕ} {frame : FwavFrame}
    (h : frame.type = .fipsPacket → source .browser frame) :
    Passes source p (takeSequence socket frame p) := by
  refine passes_modifySocket (fun _ => rfl) (fun hp => ⟨(hp.sockets socket).sent,
    (hp.sockets socket).inbox, fun other hother => ?_⟩)
  change (if frame.type = .fipsPacket then Underway.packet frame else .nothing) =
    .packet other at hother
  split at hother
  · next htype =>
    cases hother
    exact h htype
  · cases hother

/-- A packet of a browser that is refused is not queued. -/
theorem passes_forwardFails {frame : FwavFrame} {now : ℕ} {thrown : Thrown}
    (h : acceptBrowserPacket options frame now p = .error thrown) :
    Passes source p thrown.ports := by
  unfold acceptBrowserPacket at h
  split at h
  · cases h
    exact .refl p
  · split at h
    · next fault henqueue =>
      cases h
      unfold enqueuePacket at henqueue
      dsimp only at henqueue
      split at henqueue
      · cases henqueue
        exact passes_expireToFips now p
      · cases henqueue
    · cases h

/-- Every move of an actor passes packets on, one case for each kind of move. -/
theorem passes_move (h : PortMove options a p q) (hfed : Fed source a p) : Passes source p q := by
  cases h with
  | greets ha => exact passes_connectBrowser p
  | joins ha => exact passes_connectFips p
  | receives ha hattached => exact passes_receiveMessage (hfed.arrival _ _ ha).1
  | notes hf => exact passes_modifyConnection _ _ p
  | rejects socket ha => exact passes_rejectSocket socket p
  | leavesFips ha hattached hendpoint => exact passes_closeFips _ p
  | leaves ha hattached hendpoint => exact passes_closeBrowser _ p
  | retries ha htimer => exact passes_retry _ p
  | submits now ha hendpoint =>
    -- Who waits while it handles a message handles one of a browser.
    obtain ⟨-, hbrowser, -⟩ := hfed.handler _ _ ha
    rw [hendpoint] at hbrowser
    cases hbrowser
  | answers now h htype => exact passes_acceptBrowserAdmission _ _ now p
  | readies now h htype =>
    rcases acceptAcousticReady_cases now h htype with heq | ⟨-, heq⟩
    · rw [heq]
      exact .refl p
    · rw [heq]
      exact passes_arm _ _ p
  | disarms h htype =>
    unfold acceptAcousticDisarm
    split
    · exact .refl p
    · split
      · exact .refl p
      · exact (passes_disarm p).trans (passes_issue _ _)
  | hails h htype =>
    unfold acceptHello
    split
    · exact .refl p
    · exact passes_issue _ p
  | takes h horder => exact passes_takeSequence (fun htype => hfed.packet h.message htype)
  | @forwards q _ frame now hcarries htype hunderway h =>
    have haccepts : Passes source p (leftPorts (acceptBrowserPacket options frame now p)) :=
      passes_acceptBrowserPacket now p (hfed.packet hcarries htype)
    rw [h] at haccepts
    exact haccepts.trans (passes_endUnderway _ q)
  | forwardFails htype h => exact passes_forwardFails h
  | errs h htype => exact (passes_disarm p).trans (passes_issue _ _)
  | exhausts hf hepoch => exact passes_recovers hf p
  | resets hf hepoch =>
    exact ((passes_recovers hf p).trans (passes_disarm _)).trans (passes_resetPorts a _)
  | endsReset h => exact passes_noted rfl rfl rfl rfl rfl rfl rfl
  | announces h => exact passes_announceReset a p
  | restarts =>
    exact passes_keep (fun _ => rfl) (fun _ => rfl) (fun _ _ => id) (fun _ _ h => by cases h)
  | flushes => exact passes_flushToBrowser p
  | enqueues frame now => exact passes_enqueue frame now p
  | @tells socket message h =>
    refine passes_tell socket ?_
    cases message <;> simp [isNews, packetOf] at h ⊢
  | @broadcasts message h =>
    refine passes_broadcast ?_ p
    cases message <;> simp [isNews, packetOf] at h ⊢
  | refuses ha h => exact passes_noted rfl rfl rfl rfl rfl rfl rfl

end Moves

section Bridges

variable {source} {options : BridgeServerOptions} {a : Actor} {b b' : Bridge} {w : World}
  {e : Event}

/-- A move of the bridge is one of its ports or touches the trial alone. -/
theorem passes_bridge (h : Move options False a b b') (hfed : Fed source a b.ports) :
    Passes source b.ports b'.ports := by
  cases h with
  | ports h => exact passes_move h hfed
  | trial => exact .refl _
  | reads => exact .refl _
  | plays => exact passes_broadcast rfl _
  | results => exact passes_tell _ rfl
  | answers => exact passes_tell _ rfl

/-- The moves of an actor pass packets on. -/
theorem passes_moves (h : Relation.ReflTransGen (Move options False a) b b')
    (hfed : Fed source a b.ports) : Passes source b.ports b'.ports := by
  intro hcarried
  induction h with
  | refl => exact Passes.refl _ hcarried
  | tail _ hlast ih => exact ih.trans (passes_bridge hlast (hfed.passed ih) ih.carried)

variable (source) in
/-- Every packet in a bridge comes from where it should. -/
structure Faithful (options : BridgeServerOptions) (w : World) : Prop where
  /-- The bridge is sound. -/
  sound : Sound options False w
  /-- Its packets come from where they should. -/
  carried : Carried source w.state.ports
  /-- So do those of the messages of those who wait. -/
  waiting : ∀ process ∈ w.processes, Fed source process.part w.state.ports

variable (source) in
/-- A message that arrives comes from the source of its endpoint. -/
def Brings (w : World) : Event → Prop
  | .receive socket message => Bears (source (w.state.ports.sockets socket).endpoint) message
  | _ => True

/-- A bridge that is faithful to its sources is faithful to sources that give more. -/
theorem Faithful.mono {source' : Endpoint → FwavFrame → Prop} (h : Faithful source options w)
    (hmore : ∀ endpoint packet, source endpoint packet → source' endpoint packet) :
    Faithful source' options w where
  sound := h.sound
  carried := h.carried.mono hmore
  waiting process hprocess := by
    have hfed := h.waiting process hprocess
    refine ⟨fun socket message ha => ?_, fun socket message ha => ?_⟩
    · obtain ⟨hlt, hendpoint, hbears⟩ := hfed.handler socket message ha
      exact ⟨hlt, hendpoint, hbears.mono (hmore _)⟩
    · obtain ⟨hbears, hlt⟩ := hfed.arrival socket message ha
      exact ⟨hbears.mono (hmore _), hlt⟩

/-- Those who wait after a method began waited before, or it is the method. -/
theorem waits_launch {part : Actor} {f : BridgeM Unit}
    {process : Process Actor Bridge Refusal Awaited Reply}
    (h : process ∈ (launch part f w).processes) : process ∈ w.processes ∨ process.part = part := by
  unfold launch settle at h
  split at h
  · exact .inl h
  · exact .inl h
  · rcases List.mem_append.mp h with h | h
    · exact .inl h
    · rw [List.mem_singleton.mp h]
      exact .inr rfl

/-- Those who wait after a method went on waited before, or it is the method. -/
theorem waits_resume {index : ℕ} {reply : Reply}
    {process : Process Actor Bridge Refusal Awaited Reply}
    (h : process ∈ (resumeAt admits index reply w).processes) :
    process ∈ w.processes ∨ process.part = actorOf w (.resume index reply) := by
  unfold resumeAt at h
  split at h
  · exact .inl h
  · next found hfound =>
    split at h
    · have hactor : actorOf w (.resume index reply) = found.part := by
        simp [actorOf, hfound]
      unfold settle at h
      split at h
      · exact .inl (List.mem_of_mem_eraseIdx h)
      · exact .inl (List.mem_of_mem_eraseIdx h)
      · rcases List.mem_append.mp h with h | h
        · exact .inl (List.mem_of_mem_eraseIdx h)
        · rw [List.mem_singleton.mp h, hactor]
          exact .inr rfl
    · exact .inl h

/-- Who waits after a step waited before, or it is who acts in the step. -/
theorem waits_step {process : Process Actor Bridge Refusal Awaited Reply}
    (h : process ∈ (step options w e).processes) :
    process ∈ w.processes ∨ process.part = actorOf w e := by
  cases e with
  | connectBrowser | connectFips | beginClose | operatorPlayback | beginWrite | endWrite =>
    exact waits_launch h
  | receive | closed | retryTimer | expiryTimer =>
    simp only [step] at h
    split at h
    · exact waits_launch h
    · exact .inl h
  | operatorReset | microtask =>
    simp only [step] at h
    split at h
    · exact .inl h
    · exact waits_launch h
  | operatorStart =>
    simp only [step] at h
    split at h
    · exact .inl h
    · have hwaits := waits_launch h
      exact hwaits
  | process socket =>
    simp only [step, processMessage] at h
    split at h
    · exact .inl h
    · next message rest hinbox =>
      have hactor : actorOf w (.process socket) = .handler socket message := by
        simp [actorOf, hinbox]
      rw [hactor]
      split at h
      · exact .inl h
      · have hwaits := waits_launch h
        exact hwaits
  | resume index reply => exact waits_resume h

/-- The next message of an inbox is taken off it. -/
theorem passes_takeMessage (socket : ℕ) (message : RawMessage) (p : Ports) :
    Passes source p (takeMessage socket message p) := by
  have htaken : Passes source p (modifySocket socket
      (fun k => { k with inbox := k.inbox.tail, underway := .nothing }) p) :=
    passes_keep (fun _ => rfl) (fun _ => rfl) (fun _ _ => List.mem_of_mem_tail)
      (fun _ _ h => by cases h)
  unfold takeMessage
  dsimp only
  split
  · exact htaken
  · exact htaken.trans (passes_record _ _)

/-- Before a method begins a message is taken, or nothing happens. -/
theorem passes_prepares (h : Prepares a b b') : Passes source b.ports b'.ports := by
  cases h with
  | message socket message => exact passes_takeMessage socket message _
  | call call => exact .refl _

/-- A message of the worker is handled at once. -/
theorem passes_handleFips {options : PortOptions} {socket : ℕ} {message : RawMessage} (now : ℕ)
    {p : Ports} (h : Bears (source .fips) message) :
    Passes source p (handleFipsMessage options socket message now p) := by
  have htakes : ∀ sequence : ℕ, Passes source p (takeFipsSequence socket sequence p) :=
    fun _ => passes_keep (fun _ => rfl) (fun _ => rfl) (fun _ _ => id) (fun _ _ => id)
  rcases handleFipsMessage_cases options socket message now p with
    heq | ⟨frame, hbinary, hdecoded, htype, -, -, hcases⟩
  · rw [heq]
    exact passes_rejectSocket socket p
  · have hframe : source .fips frame := h hbinary _ (packetIn_of_decode hdecoded htype)
    have hqueued : Passes source p (leftPorts (enqueuePacket options .fipsToBrowser frame now
        (takeFipsSequence socket frame.sequence p))) :=
      (htakes frame.sequence).trans (passes_enqueueToBrowser now _ hframe)
    rcases hcases with heq | ⟨thrown, henqueue, heq⟩ | ⟨q, henqueue, heq⟩
    · rw [heq]
      exact (htakes frame.sequence).trans (passes_rejectSocket socket _)
    · rw [henqueue] at hqueued
      rw [heq]
      exact hqueued.trans (passes_rejectSocket socket _)
    · rw [henqueue] at hqueued
      rw [heq]
      exact hqueued.trans (passes_flushToBrowser q)

/-- What an actor has at hand at the beginning of a step is covered by the source: the message it
takes from its socket, or the one it kept over its await. -/
theorem fed_actor (h : Faithful source options w) (hbrings : Brings source w e)
    (hfips : ∀ socket, e = .process socket → (w.state.ports.sockets socket).inbox ≠ [] →
      (w.state.ports.sockets socket).endpoint = .browser)
    (hattached : ∀ socket message, e = .receive socket message →
      (w.state.ports.sockets socket).attached = true) :
    Fed source (actorOf w e) w.state.ports := by
  cases e with
  | receive socket message =>
    refine ⟨fun _ _ ha => (by cases ha), fun other message' ha => ?_⟩
    cases ha
    exact ⟨hbrings, h.sound.standing.placed socket (.inl (hattached socket message rfl))⟩
  | process socket =>
    cases hinbox : (w.state.ports.sockets socket).inbox with
    | nil =>
      have hactor : actorOf w (.process socket) = .environment := by
        simp [actorOf, hinbox]
      rw [hactor]
      exact ⟨fun _ _ ha => (by cases ha), fun _ _ ha => (by cases ha)⟩
    | cons message rest =>
      have hactor : actorOf w (.process socket) = .handler socket message := by
        simp [actorOf, hinbox]
      have hne : (w.state.ports.sockets socket).inbox ≠ [] := by
        rw [hinbox]
        simp
      have hbrowser := hfips socket rfl hne
      have hbears := (h.carried.sockets socket).inbox message
        (by rw [hinbox]; exact List.mem_cons_self)
      rw [hbrowser] at hbears
      rw [hactor]
      refine ⟨fun other message' ha => ?_, fun _ _ ha => (by cases ha)⟩
      cases ha
      exact ⟨h.sound.standing.placed socket (.inr hne), hbrowser, hbears⟩
  | resume index reply =>
    cases hfound : w.processes[index]? with
    | none =>
      have hactor : actorOf w (.resume index reply) = .environment := by
        simp [actorOf, hfound]
      rw [hactor]
      exact ⟨fun _ _ ha => (by cases ha), fun _ _ ha => (by cases ha)⟩
    | some process =>
      have hactor : actorOf w (.resume index reply) = process.part := by
        simp [actorOf, hfound]
      rw [hactor]
      exact h.waiting process (List.mem_of_getElem? hfound)
  | _ => exact ⟨fun _ _ ha => (by cases ha), fun _ _ ha => (by cases ha)⟩

/-- A step in which the actor has nothing wrong at hand. -/
theorem faithful_of_fed (h : Faithful source options w)
    (hfed : Fed source (actorOf w e) w.state.ports) :
    Faithful source options (step options w e) := by
  have hevolves := evolves_step e h.sound
  obtain ⟨b, hb, hmoves⟩ := hevolves.moves
  have hprepared : Passed source w.state.ports b.ports := by
    rcases hb with rfl | hb
    · exact Passes.refl _ h.carried
    · exact passes_prepares hb h.carried
  have hpassed : Passed source w.state.ports (step options w e).state.ports :=
    hprepared.trans (passes_moves hmoves (hfed.passed hprepared) hprepared.carried)
  refine ⟨hevolves.sound, hpassed.carried, fun process hprocess => ?_⟩
  rcases waits_step hprocess with hold | hpart
  · exact (h.waiting process hold).passed hpassed
  · rw [hpart]
    exact hfed.passed hpassed

/-- A message of the worker is taken and handled. -/
theorem faithful_processFips (h : Faithful source options w) {socket : ℕ} {message : RawMessage}
    {rest : List RawMessage} (hinbox : (w.state.ports.sockets socket).inbox = message :: rest)
    (hendpoint : (w.state.ports.sockets socket).endpoint = .fips) :
    Faithful source options (step options w (.process socket)) := by
  have hsound : Sound options False (step options w (.process socket)) := (evolves_step _ h.sound).sound
  have hbears := (h.carried.sockets socket).inbox message (by rw [hinbox]; exact List.mem_cons_self)
  rw [hendpoint] at hbears
  by_cases hwaits : handlerWaits socket w = true
  · have hstill : step options w (.process socket) = w := by
      simp [step, processMessage, hinbox, hwaits]
    rw [hstill]
    exact h
  · have hstep : step options w (.process socket) = launch (.handler socket message)
        (handleFips options socket message)
        { w with state := beginMessage socket message w.state } := by
      simp [step, processMessage, hinbox, hwaits, hendpoint, handleMessage]
    have hprocesses : (step options w (.process socket)).processes = w.processes := by
      rw [hstep]
      rfl
    have hports : (step options w (.process socket)).state.ports =
        handleFipsMessage options.ports socket message (options.now w.state.readings)
          (takeMessage socket message w.state.ports) := by
      rw [hstep]
      rfl
    have hpassed : Passed source w.state.ports (step options w (.process socket)).state.ports := by
      rw [hports]
      exact ((passes_takeMessage socket message _).trans (passes_handleFips _ hbears)) h.carried
    refine ⟨hsound, hpassed.carried, fun process hprocess => ?_⟩
    rw [hprocesses] at hprocess
    exact (h.waiting process hprocess).passed hpassed

/-- A bridge that is given packets where they should come from keeps sending each endpoint what the
other one gave. -/
theorem faithful_step (h : Faithful source options w) (hbrings : Brings source w e) :
    Faithful source options (step options w e) := by
  by_cases hfips : ∃ socket message rest, e = .process socket ∧
      (w.state.ports.sockets socket).inbox = message :: rest ∧
      (w.state.ports.sockets socket).endpoint = .fips
  · obtain ⟨socket, message, rest, rfl, hinbox, hendpoint⟩ := hfips
    exact faithful_processFips h hinbox hendpoint
  · by_cases hlost : ∃ socket message, e = .receive socket message ∧
        (w.state.ports.sockets socket).attached = false
    · obtain ⟨socket, message, rfl, hattached⟩ := hlost
      have hstill : step options w (.receive socket message) = w := by
        simp [step, hattached]
      rw [hstill]
      exact h
    · refine faithful_of_fed h (fed_actor h hbrings (fun socket he hne => ?_)
        (fun socket message he => ?_))
      · cases hinbox : (w.state.ports.sockets socket).inbox with
        | nil => exact absurd hinbox hne
        | cons message rest =>
          cases hendpoint : (w.state.ports.sockets socket).endpoint with
          | browser => rfl
          | fips => exact absurd ⟨socket, message, rest, he, hinbox, hendpoint⟩ hfips
      · by_contra hattached
        rw [Bool.not_eq_true] at hattached
        exact hlost ⟨socket, message, he, hattached⟩

/-- A bridge that begins to listen has no packets. -/
theorem faithful_createBridgeServer (options : BridgeServerOptions) :
    Faithful source options (createBridgeServer options) := by
  refine ⟨sound_createBridgeServer,
    ⟨held_empty rfl rfl rfl, fun k => spoken_admitted rfl rfl rfl, ?_, ?_⟩, ?_⟩
  · intro k hk
    cases hk
  · intro k hk
    cases hk
  · intro process hprocess
    cases hprocess

/-- A bridge after a run. -/
def relayed (options : BridgeServerOptions) (events : List Event) : World :=
  run (step options) (createBridgeServer options) events

/-- The packets an endpoint gave the bridge in a run: those in the messages its sockets sent. -/
def Gave (options : BridgeServerOptions) (events : List Event) (endpoint : Endpoint)
    (packet : FwavFrame) : Prop :=
  ∃ before socket message after, events = before ++ .receive socket message :: after ∧
    ((relayed options before).state.ports.sockets socket).endpoint = endpoint ∧
    message.isBinary = true ∧ packetIn message.rawData = some packet

/-- What was given in a run was given in every longer one. -/
theorem Gave.concat {events : List Event} {endpoint : Endpoint} {packet : FwavFrame}
    (h : Gave options events endpoint packet) (e : Event) :
    Gave options (events ++ [e]) endpoint packet := by
  obtain ⟨before, socket, message, after, rfl, hsocket⟩ := h
  exact ⟨before, socket, message, after ++ [e], by simp, hsocket⟩

/-- A message that arrives is one its endpoint gave. -/
theorem brings_gave (events : List Event) (e : Event) :
    Brings (Gave options (events ++ [e])) (relayed options events) e := by
  cases e with
  | receive socket message =>
    intro hbinary packet hpacket
    exact ⟨events, socket, message, [], by simp, rfl, hbinary, hpacket⟩
  | _ => trivial

/-- The induction is on the run from its end: what was given before is given still. -/
theorem faithful_relayed (options : BridgeServerOptions) (events : List Event) :
    Faithful (Gave options events) options (relayed options events) := by
  induction events using List.reverseRecOn with
  | nil => exact faithful_createBridgeServer options
  | append_singleton events e ih =>
    have hmore : Faithful (Gave options (events ++ [e])) options (relayed options events) :=
      ih.mono (fun _ _ h => h.concat e)
    have hstep := faithful_step hmore (brings_gave events e)
    unfold relayed at hstep ⊢
    rw [run_append]
    exact hstep

/-- A bridge sends an endpoint no packets but those the other one gave it, and these as they were:
in every run, each frame of a packet on a socket of an endpoint is, with its epoch, its sequence
and its class, one of a message the other endpoint sent. -/
theorem relayed_genuine (options : BridgeServerOptions) (events : List Event) {socket : ℕ}
    {message : Outbound} {packet : FwavFrame}
    (hsent : message ∈ ((relayed options events).state.ports.sockets socket).sent)
    (hpacket : packetOf message = some packet) :
    Gave options events
      (opposite ((relayed options events).state.ports.sockets socket).endpoint) packet :=
  ((faithful_relayed options events).carried.sockets socket).sent message hsent packet hpacket

/-- A packet of the bench, as the bridge reads it. -/
def benchFrame : FwavFrame :=
  withDefaults
    { type := .fipsPacket, trafficClass := some 1, epoch := 1, sequence := 5, payload := [7] }

/-- On the bench the worker is sent a packet, so the browser gave it. -/
theorem relayed_genuine_bench : Gave benchBridge benchStream .browser benchFrame := by
  have hsent : .frame benchFrame ∈
      ((relayed benchBridge benchStream).state.ports.sockets 1).sent := by
    decide +kernel
  have hpacket : packetOf (.frame benchFrame) = some benchFrame := rfl
  have hendpoint : ((relayed benchBridge benchStream).state.ports.sockets 1).endpoint = .fips := by
    decide +kernel
  have hgave := relayed_genuine benchBridge benchStream hsent hpacket
  rwa [hendpoint] at hgave

end Bridges

end Fipwave.PacketCarriage
