import Fipwave.BridgePorts

/-!
# What moving packets leaves alone

Queues, admissions, retries and notices to the worker change the queues and
what was sent, and nothing else: not the epoch, not the owners, not readiness
and nothing that is kept for a connection. As long as the queues hold packets,
no control frame is among the messages they send.
-/

namespace Fipwave.BridgePorts

open ByteWords FwavProtocol

/-- A frame by which the worker learns whether the browser is ready. -/
def isControl (frame : FwavFrame) : Bool :=
  frame.type = .browserArm || frame.type = .browserDisarm || frame.type = .reset

/-- The packet queues hold packets, and a packet waits for its answer. -/
def HoldsPackets (p : Ports) : Prop :=
  ∀ entry, entry ∈ p.browserToFips.frames ∨ entry ∈ p.fipsToBrowser.frames ∨
    p.pendingBrowserAdmission.map (·.entry) = some entry → entry.frame.type = .fipsPacket

/-- The sockets of the second ports are those of the first with more frames sent; no control
frame is among them as long as the queues hold packets. -/
def SaidMore (p q : Ports) : Prop :=
  ∀ k, ∃ frames : List FwavFrame, (HoldsPackets p → ∀ f ∈ frames, isControl f = false) ∧
    q.sockets k = { p.sockets k with sent := (p.sockets k).sent ++ frames.map .frame }

/-- What moving packets leaves alone. -/
structure Link where
  /-- Epoch. -/
  epoch : ℕ
  /-- Readiness. -/
  acousticReady : Bool
  /-- Its proof. -/
  acousticReadinessProof : Option Bytes
  /-- Owner of the browser endpoint. -/
  owner : Option ℕ
  /-- Owner of the FIPS endpoint. -/
  fipsOwner : Option ℕ
  /-- Claim of the epoch. -/
  epochClaimed : Bool
  /-- Leave to reconnect. -/
  reconnectAllowed : Bool
  /-- Condition of it. -/
  reconnectRequiresReset : Bool
  /-- Sockets there are. -/
  socketCount : ℕ
  /-- Capabilities issued. -/
  issueCount : ℕ
  /-- Who made the session ready. -/
  armedBy : Option ℕ
  /-- Issues that made a session ready. -/
  armings : List ℕ
  /-- Refused messages. -/
  refused : List RefusedMessage
  /-- Resets under way. -/
  resetsUnderway : List Actor

/-- What moving packets leaves alone in some ports. -/
def linkOf (p : Ports) : Link :=
  ⟨p.epoch, p.acousticReady, p.acousticReadinessProof, p.owner, p.fipsOwner,
    p.epochClaimed, p.reconnectAllowed, p.reconnectRequiresReset, p.socketCount,
    p.issueCount, p.armedBy, p.armings, p.refused, p.resetsUnderway⟩

/-- Only queues and what was sent differ, and packets stay packets. -/
structure Relayed (p q : Ports) : Prop where
  /-- The rest is the same. -/
  link : linkOf q = linkOf p
  /-- Packets stay packets. -/
  holds : HoldsPackets p → HoldsPackets q
  /-- Sockets, up to what was sent. -/
  said : SaidMore p q

theorem Relayed.refl (p : Ports) : Relayed p p := ⟨rfl, id, fun _ => ⟨[], by simp, by simp⟩⟩

theorem Relayed.trans {p q r : Ports} (hpq : Relayed p q) (hqr : Relayed q r) : Relayed p r := by
  refine ⟨hqr.link.trans hpq.link, hqr.holds ∘ hpq.holds, ?_⟩
  intro k
  obtain ⟨first, hfirst, hq⟩ := hpq.said k
  obtain ⟨second, hsecond, hr⟩ := hqr.said k
  refine ⟨first ++ second, ?_, ?_⟩
  · intro hp m hm
    rcases List.mem_append.mp hm with hm | hm
    · exact hfirst hp m hm
    · exact hsecond (hpq.holds hp) m hm
  · rw [hr, hq]
    simp

section Fields

variable {p q : Ports}

/-- Relaying does not concern the link, so whatever is read off the link stays as it is. -/
theorem Relayed.epoch (h : Relayed p q) : q.epoch = p.epoch := congrArg Link.epoch h.link

theorem Relayed.acousticReady (h : Relayed p q) : q.acousticReady = p.acousticReady :=
  congrArg Link.acousticReady h.link

theorem Relayed.acousticReadinessProof (h : Relayed p q) :
    q.acousticReadinessProof = p.acousticReadinessProof :=
  congrArg Link.acousticReadinessProof h.link

theorem Relayed.owner (h : Relayed p q) : q.owner = p.owner := congrArg Link.owner h.link

theorem Relayed.fipsOwner (h : Relayed p q) : q.fipsOwner = p.fipsOwner :=
  congrArg Link.fipsOwner h.link

theorem Relayed.epochClaimed (h : Relayed p q) : q.epochClaimed = p.epochClaimed :=
  congrArg Link.epochClaimed h.link

theorem Relayed.reconnectAllowed (h : Relayed p q) : q.reconnectAllowed = p.reconnectAllowed :=
  congrArg Link.reconnectAllowed h.link

theorem Relayed.reconnectRequiresReset (h : Relayed p q) :
    q.reconnectRequiresReset = p.reconnectRequiresReset :=
  congrArg Link.reconnectRequiresReset h.link

theorem Relayed.socketCount (h : Relayed p q) : q.socketCount = p.socketCount :=
  congrArg Link.socketCount h.link

theorem Relayed.issueCount (h : Relayed p q) : q.issueCount = p.issueCount :=
  congrArg Link.issueCount h.link

theorem Relayed.armedBy (h : Relayed p q) : q.armedBy = p.armedBy := congrArg Link.armedBy h.link

theorem Relayed.armings (h : Relayed p q) : q.armings = p.armings := congrArg Link.armings h.link

theorem Relayed.refused (h : Relayed p q) : q.refused = p.refused := congrArg Link.refused h.link

theorem Relayed.resetsUnderway (h : Relayed p q) : q.resetsUnderway = p.resetsUnderway :=
  congrArg Link.resetsUnderway h.link

end Fields

/-- Changes that leave the link and the sockets alone pass, if the queues still hold packets. -/
theorem relayed_of_sockets {p q : Ports} (hlink : linkOf q = linkOf p)
    (hsockets : q.sockets = p.sockets) (hpackets : HoldsPackets p → HoldsPackets q) :
    Relayed p q :=
  ⟨hlink, hpackets, fun k => ⟨[], by simp, by rw [hsockets]; simp⟩⟩

/-- A socket of ports in which one was changed. -/
theorem sockets_modifySocket (socket k : ℕ) (f : Socket → Socket) (p : Ports) :
    (modifySocket socket f p).sockets k =
      if k = socket then f (p.sockets socket) else p.sockets k :=
  Function.update_apply _ _ _ _

/-- What a change of one socket leaves alone of it is left alone of every socket. -/
theorem view_modifySocket {β : Type} (view : Socket → β) {f : Socket → Socket}
    (hf : ∀ s, view (f s) = view s) (socket : ℕ) (p : Ports) (k : ℕ) :
    view ((modifySocket socket f p).sockets k) = view (p.sockets k) := by
  rw [sockets_modifySocket]
  split
  · next heq => rw [hf, heq]
  · rfl

/-- What is kept for a connection is seen by no view of the rest of a socket. -/
theorem view_modifyConnection {β : Type} (view : Socket → β)
    (hview : ∀ s connection, view { s with connection := connection } = view s) (socket : ℕ)
    (f : BrowserConnectionState → BrowserConnectionState) (p : Ports) (k : ℕ) :
    view ((modifyConnection socket f p).sockets k) = view (p.sockets k) :=
  view_modifySocket view (fun s => hview s _) socket p k

/-- A message to one socket is seen by no view that it leaves alone. -/
theorem view_send {β : Type} (view : Socket → β) {message : Outbound}
    (hview : ∀ s, view { s with sent := s.sent ++ [message] } = view s) (socket : ℕ) (p : Ports)
    (k : ℕ) : view ((send socket message p).sockets k) = view (p.sockets k) :=
  view_modifySocket view hview socket p k

/-- What a message to everyone leaves alone of whom it reaches is left alone of every socket. -/
theorem view_broadcast {β : Type} (view : Socket → β) {message : Outbound}
    (hview : ∀ s, view { s with sent := s.sent ++ [message] } = view s) (p : Ports) (k : ℕ) :
    view ((broadcast message p).sockets k) = view (p.sockets k) := by
  unfold broadcast
  dsimp only
  split
  · exact hview _
  · rfl

/-- The report of a reset is a message to everyone too, with other flags for the worker. -/
theorem view_announceReset {β : Type} (view : Socket → β) {p : Ports}
    (hview : ∀ s flags, view { s with sent := s.sent ++ [.frame (resetFrame flags p.epoch)] } =
      view s) (actor : Actor) (k : ℕ) :
    view ((announceReset actor p).sockets k) = view (p.sockets k) := by
  unfold announceReset
  dsimp only
  split
  · exact hview _ _
  · rfl

/-- A reset renews the streams and connections of the sockets and what they are in the middle
of, and no view of the rest sees it. -/
theorem view_resetPorts {β : Type} (view : Socket → β)
    (hview : ∀ s sequence connection underway, view { s with
      lastSequence := sequence, connection := connection, underway := underway } = view s)
    (actor : Actor) (p : Ports) (k : ℕ) :
    view ((resetPorts actor p).sockets k) = view (p.sockets k) := by
  simp only [resetPorts, clearQueues, record, refreshState, clearPendingBrowserAdmission,
    renewSocket]
  split <;> exact hview (p.sockets k) _ _ _

/-- A packet is no control frame. -/
theorem isControl_of_packet {frame : FwavFrame} (h : frame.type = .fipsPacket) :
    isControl frame = false := by
  simp [isControl, h]

theorem isControl_admissionFrame (packet : FwavFrame) (result : FipsPacketAdmission) :
    isControl (admissionFrame packet result) = false := by
  simp [isControl, admissionFrame]

/-- What is not too old waited before. -/
theorem mem_dropStale {maxAgeMs now : ℕ} {queue : Queue} {entry : QueueEntry}
    (h : entry ∈ (dropStale maxAgeMs now queue).frames) : entry ∈ queue.frames :=
  (List.dropWhile_suffix _).subset h

/-- What waits behind the first entry waited before. -/
theorem mem_shift {queue : Queue} {entry : QueueEntry} (h : entry ∈ (shift queue).frames) :
    entry ∈ queue.frames := by
  unfold shift at h
  split at h
  · exact h
  · next hframes =>
    rw [hframes]
    exact List.mem_cons_of_mem _ h

/-- The ports a method leaves on either exit. -/
def leftPorts : Except Thrown Ports → Ports
  | .ok p => p
  | .error thrown => thrown.ports

section Relays

variable (options : PortOptions)

/-- The published state is read by nobody but the operator. -/
theorem relayed_refreshState (p : Ports) : Relayed p (refreshState p) :=
  relayed_of_sockets rfl rfl id

/-- The record of the relay is read by nobody. -/
theorem relayed_record (events : List RelayEvent) (p : Ports) : Relayed p (record events p) :=
  relayed_of_sockets rfl rfl id

/-- To wait for no answer any more loses no packet. -/
theorem relayed_clearPending (p : Ports) : Relayed p (clearPendingBrowserAdmission p) := by
  refine relayed_of_sockets rfl rfl (fun hp entry hentry => ?_)
  rcases hentry with hentry | hentry | hentry
  · exact hp entry (.inl hentry)
  · exact hp entry (.inr (.inl hentry))
  · cases hentry

/-- Cleared queues hold packets only. -/
theorem relayed_clearQueues (p : Ports) : Relayed p (clearQueues p) := by
  refine relayed_of_sockets rfl rfl (fun _ entry hentry => ?_)
  rcases hentry with hentry | hentry | hentry <;> cases hentry

/-- A frame may be sent that is no control frame, where queues hold packets. -/
theorem Relayed.send {p q : Ports} (h : Relayed p q) (socket : ℕ) {frame : FwavFrame}
    (hframe : HoldsPackets p → isControl frame = false) :
    Relayed p (send socket (.frame frame) q) := by
  refine ⟨h.link, h.holds, fun k => ?_⟩
  obtain ⟨frames, hframes, hk⟩ := h.said k
  unfold BridgePorts.send
  rw [sockets_modifySocket]
  split
  · next heq =>
    refine ⟨frames ++ [frame], fun hp f hf => ?_, by rw [← heq, hk]; simp⟩
    rcases List.mem_append.mp hf with hf | hf
    · exact hframes hp f hf
    · rw [List.mem_singleton.mp hf]
      exact hframe hp
  · exact ⟨frames, hframes, hk⟩

/-- A guarded send sends the frame or nothing. -/
theorem Relayed.trySend {p q : Ports} (h : Relayed p q) (socket : ℕ) {frame : FwavFrame}
    (hframe : HoldsPackets p → isControl frame = false) :
    Relayed p (trySend options socket (.frame frame) q).2 := by
  have hcount : Relayed p { q with sendCount := q.sendCount + 1 } :=
    h.trans (relayed_of_sockets rfl rfl id)
  unfold BridgePorts.trySend
  dsimp only
  split
  · exact hcount
  · exact hcount.send socket hframe

/-- Packets that are too old leave the queue to the browser. -/
theorem relayed_expireToBrowser (now : ℕ) (p : Ports) :
    Relayed p (expireToBrowser options now p) := by
  have hdrop : ∀ q : Ports, Relayed p q → q.fipsToBrowser = p.fipsToBrowser → Relayed p { q with
      fipsToBrowser := dropStale options.packetQueueLimits.maxAgeMs now p.fipsToBrowser } := by
    intro q hq hqueue
    refine hq.trans (relayed_of_sockets rfl rfl (fun hp entry hentry => ?_))
    rcases hentry with hentry | hentry | hentry
    · exact hp entry (.inl hentry)
    · exact hp entry (.inr (.inl (hqueue ▸ mem_dropStale hentry)))
    · exact hp entry (.inr (.inr hentry))
  unfold expireToBrowser
  dsimp only
  split
  · exact (hdrop _ (relayed_clearPending p) rfl).trans (relayed_record _ _)
  · exact (hdrop _ (.refl p) rfl).trans (relayed_record _ _)

/-- Packets that are too old leave the queue to the worker. -/
theorem relayed_expireToFips (now : ℕ) (p : Ports) : Relayed p (expireToFips options now p) := by
  refine relayed_of_sockets rfl rfl (fun hp entry hentry => ?_)
  rcases hentry with hentry | hentry
  · exact hp entry (.inl (mem_dropStale hentry))
  · exact hp entry (.inr hentry)

/-- A packet joins its queue, or is dropped because there is no room. -/
theorem relayed_enqueuePacket (direction : PacketDirection) {frame : FwavFrame} (now : ℕ)
    (p : Ports) (htype : frame.type = .fipsPacket) :
    Relayed p (leftPorts (enqueuePacket options direction frame now p)) := by
  unfold enqueuePacket
  cases direction with
  | browserToFips =>
    dsimp only
    have hexpired := relayed_expireToFips options now p
    split
    · exact hexpired
    · refine hexpired.trans (relayed_of_sockets rfl rfl (fun hp entry hentry => ?_))
      rcases hentry with hentry | hentry
      · rcases List.mem_append.mp hentry with hentry | hentry
        · exact hp entry (.inl hentry)
        · rw [List.mem_singleton.mp hentry]
          exact htype
      · exact hp entry (.inr hentry)
  | fipsToBrowser =>
    dsimp only
    have hexpired := relayed_expireToBrowser options now p
    split
    · exact hexpired
    · refine hexpired.trans (relayed_of_sockets rfl rfl (fun hp entry hentry => ?_))
      rcases hentry with hentry | hentry | hentry
      · exact hp entry (.inl hentry)
      · rcases List.mem_append.mp hentry with hentry | hentry
        · exact hp entry (.inr (.inl hentry))
        · rw [List.mem_singleton.mp hentry]
          exact htype
      · exact hp entry (.inr (.inr hentry))

/-- The first packet of its queue is offered to the browser, unless an answer is waited for. -/
theorem relayed_flushToBrowser (p : Ports) : Relayed p (flushToBrowser options p) := by
  unfold flushToBrowser
  split
  · exact .refl p
  · next owner _ =>
    split
    · exact .refl p
    · split
      · exact .refl p
      · split
        · exact relayed_refreshState p
        · next entry rest hframes =>
          have hhead : HoldsPackets p → entry.frame.type = .fipsPacket :=
            fun hp => hp entry (.inr (.inl (by simp [hframes])))
          have hsend := (Relayed.refl p).trySend options owner
            (fun hp => isControl_of_packet (hhead hp))
          rcases hr : trySend options owner (.frame entry.frame) p with ⟨thrown, q⟩
          rw [hr] at hsend
          cases thrown with
          | true => exact hsend.trans (relayed_refreshState q)
          | false =>
            refine ⟨hsend.link, fun hp e he => ?_, hsend.said⟩
            rcases he with he | he | he
            · exact hsend.holds hp e (.inl he)
            · exact hsend.holds hp e (.inr (.inl he))
            · cases he
              exact hhead hp

/-- The entries of a queue are sent to the worker until a send throws. -/
theorem relayed_forwardPackets (worker : ℕ) (entries : List QueueEntry) {p q : Ports}
    (hpq : Relayed p q) (h : HoldsPackets p → ∀ entry ∈ entries, entry.frame.type = .fipsPacket) :
    Relayed p (forwardPackets options worker entries q) := by
  induction entries generalizing q with
  | nil => exact hpq.trans (relayed_refreshState q)
  | cons entry rest ih =>
    unfold forwardPackets
    dsimp only
    have hshift : Relayed q { q with browserToFips := shift q.browserToFips } := by
      refine relayed_of_sockets rfl rfl (fun hq entry hentry => ?_)
      rcases hentry with hentry | hentry
      · exact hq entry (.inl (mem_shift hentry))
      · exact hq entry (.inr hentry)
    have hsend := (hpq.trans hshift).trySend options worker
      (fun hp => isControl_of_packet (h hp entry (by simp)))
    rcases hr : trySend options worker (.frame entry.frame)
      { q with browserToFips := shift q.browserToFips } with ⟨thrown, r⟩
    rw [hr] at hsend
    cases thrown with
    | true => exact hsend.trans (relayed_refreshState r)
    | false =>
      refine ih (hsend.trans (relayed_of_sockets rfl rfl id)) (fun hp entry hentry => ?_)
      exact h hp entry (List.mem_cons_of_mem _ hentry)

/-- The worker gets what waits for it. -/
theorem relayed_flushToFips (p : Ports) : Relayed p (flushToFips options p) := by
  unfold flushToFips
  split
  · exact .refl p
  · exact relayed_forwardPackets options _ _ (.refl p) (fun hp entry hentry => hp entry (.inl hentry))

/-- The packet whose answer is waited for is offered once more. -/
theorem relayed_retry (timer : ℕ) (p : Ports) :
    Relayed p (retryBrowserAdmission options timer p) := by
  have herase : Relayed p { p with retryTimers := p.retryTimers.erase timer } :=
    relayed_of_sockets rfl rfl id
  unfold retryBrowserAdmission
  dsimp only
  split
  · exact herase
  · next pending hsome =>
    have hpending : HoldsPackets p → pending.entry.frame.type = .fipsPacket :=
      fun hp => hp pending.entry (.inr (.inr (by rw [hsome]; rfl)))
    split
    · exact herase
    · have hclear : Relayed p { p with
          retryTimers := p.retryTimers.erase timer
          pendingBrowserAdmission := some { pending with retryTimer := none } } := by
        refine relayed_of_sockets rfl rfl (fun hp entry hentry => ?_)
        rcases hentry with hentry | hentry | hentry
        · exact hp entry (.inl hentry)
        · exact hp entry (.inr (.inl hentry))
        · cases hentry
          exact hpending hp
      split
      · exact hclear
      · have hsend := hclear.trySend options pending.owner
          (fun hp => isControl_of_packet (hpending hp))
        rcases hr : trySend options pending.owner (.frame pending.entry.frame) { p with
          retryTimers := p.retryTimers.erase timer
          pendingBrowserAdmission := some { pending with retryTimer := none } } with ⟨thrown, q⟩
        rw [hr] at hsend
        cases thrown with
        | true => exact hsend.trans (relayed_refreshState q)
        | false => exact hsend.trans (relayed_record _ q)

/-- The worker is told what became of its packet by an answer, which is no control frame. -/
theorem relayed_notifyAdmission (packet : FwavFrame) (result : FipsPacketAdmission) (p : Ports) :
    Relayed p (notifyFipsPacketAdmission options packet result p) := by
  unfold notifyFipsPacketAdmission
  split
  · exact .refl p
  · exact (Relayed.refl p).trySend options _ (fun _ => isControl_admissionFrame packet result)

/-- The packet at the head of its queue is done with. -/
theorem relayed_shiftToBrowser (event : ℕ → RelayEvent) (entry : QueueEntry) (p : Ports) :
    Relayed p (shiftToBrowser event entry p) := by
  have hshift : Relayed p { p with fipsToBrowser := shift p.fipsToBrowser } := by
    refine relayed_of_sockets rfl rfl (fun hp entry hentry => ?_)
    rcases hentry with hentry | hentry | hentry
    · exact hp entry (.inl hentry)
    · exact hp entry (.inr (.inl (mem_shift hentry)))
    · exact hp entry (.inr (.inr hentry))
  exact (hshift.trans (relayed_clearPending _)).trans (relayed_record _ _)

/-- The packet that was accepted is done with, and the next one is offered. -/
theorem relayed_admissionAccepted (pending : PendingBrowserAdmission) (p : Ports) :
    Relayed p (admissionAccepted options pending p) := by
  unfold admissionAccepted
  split
  · exact ((relayed_clearPending p).trans (relayed_refreshState _)).trans
      (relayed_flushToBrowser options _)
  · dsimp only
    have hcount : Relayed p { shiftToBrowser .accepted pending.entry p with
        fipsToBrowserCounter :=
          (shiftToBrowser .accepted pending.entry p).fipsToBrowserCounter + 1 } :=
      (relayed_shiftToBrowser .accepted pending.entry p).trans (relayed_of_sockets rfl rfl id)
    have hnotify := hcount.trans
      (relayed_notifyAdmission options pending.entry.frame .accepted _)
    exact (hnotify.trans (relayed_refreshState _)).trans (relayed_flushToBrowser options _)

/-- A packet waits on, with another number of attempts or another timer. -/
theorem relayed_hold {p : Ports} {pending : PendingBrowserAdmission}
    (hpending : p.pendingBrowserAdmission = some pending) (attempts timerCount : ℕ)
    (retryTimer : Option ℕ) (retryTimers : List ℕ) :
    Relayed p { p with
      pendingBrowserAdmission := some { pending with attempts, retryTimer }
      retryTimers, timerCount } := by
  refine relayed_of_sockets rfl rfl (fun hp entry hentry => ?_)
  rcases hentry with hentry | hentry | hentry
  · exact hp entry (.inl hentry)
  · exact hp entry (.inr (.inl hentry))
  · cases hentry
    exact hp pending.entry (.inr (.inr (by rw [hpending]; rfl)))

/-- What the worker is told changes nothing about the answer that is waited for. -/
theorem pending_notifyAdmission (packet : FwavFrame) (result : FipsPacketAdmission) (p : Ports) :
    (notifyFipsPacketAdmission options packet result p).pendingBrowserAdmission =
      p.pendingBrowserAdmission := by
  unfold notifyFipsPacketAdmission
  split
  · rfl
  · unfold trySend
    dsimp only
    split <;> rfl

/-- A packet the browser has no room for is retried or dropped, and the worker is told once. -/
theorem relayed_admissionQueueFull {pending : PendingBrowserAdmission} (now : ℕ) {p : Ports}
    (hpending : p.pendingBrowserAdmission = some pending) :
    Relayed p (leftPorts (admissionQueueFull options pending now p)) := by
  unfold admissionQueueFull
  dsimp only
  have hnotify : Relayed p (if pending.attempts = 1 then
      notifyFipsPacketAdmission options pending.entry.frame .queueFull p else p) := by
    split
    · exact relayed_notifyAdmission options _ _ p
    · exact .refl p
  have hsame : (if pending.attempts = 1 then
      notifyFipsPacketAdmission options pending.entry.frame .queueFull p
      else p).pendingBrowserAdmission = some pending := by
    split
    · rw [pending_notifyAdmission, hpending]
    · exact hpending
  generalize (if pending.attempts = 1 then
    notifyFipsPacketAdmission options pending.entry.frame .queueFull p else p) = q at hnotify hsame ⊢
  split
  · split
    · exact hnotify
    · have hshift := hnotify.trans (relayed_shiftToBrowser .expired pending.entry q)
      exact (hshift.trans (relayed_refreshState _)).trans (relayed_flushToBrowser options _)
  · exact (hnotify.trans (relayed_hold hsame _ _ _ _)).trans (relayed_refreshState _)

/-- An answer of the browser is taken for the packet it names, or refused. -/
theorem relayed_acceptBrowserAdmission (socket : ℕ) (frame : FwavFrame) (now : ℕ) (p : Ports) :
    Relayed p (leftPorts (acceptBrowserAdmission options socket frame now p)) := by
  unfold acceptBrowserAdmission
  split
  · exact .refl p
  · next pending hpending =>
    split
    · exact .refl p
    · split
      · exact .refl p
      · split
        · exact .refl p
        · split
          · exact .refl p
          · exact relayed_admissionAccepted options _ p
          · exact relayed_admissionQueueFull options _ hpending

/-- A packet of the browser is queued, and sent on to the worker that is there. -/
theorem relayed_acceptBrowserPacket {frame : FwavFrame} (now : ℕ) (p : Ports)
    (htype : frame.type = .fipsPacket) :
    Relayed p (leftPorts (acceptBrowserPacket options frame now p)) := by
  unfold acceptBrowserPacket
  split
  · exact .refl p
  · have henqueue := relayed_enqueuePacket options .browserToFips now p htype
    split
    · next thrown heq =>
      rw [heq] at henqueue
      exact henqueue
    · next q heq =>
      rw [heq] at henqueue
      exact henqueue.trans (relayed_flushToFips options q)

/-- A control frame is queued in a queue of its own, from which nothing is sent. -/
theorem relayed_enqueue (frame : FwavFrame) (now : ℕ) (p : Ports) :
    Relayed p (leftPorts (enqueue frame now p)) := by
  unfold enqueue
  split
  · exact .refl p
  · dsimp only
    split
    · exact relayed_of_sockets rfl rfl id
    · exact relayed_of_sockets rfl rfl id

end Relays

end Fipwave.BridgePorts
