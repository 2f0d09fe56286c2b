import Fipwave.BridgeRuns

/-!
# The byte counters of the queues of a bridge

Each queue counts the bytes of its frames, headers included, and keeps to its
limits. Frames enter in two places and leave in several, and most of what the
endpoints do leaves all queues alone.
-/

namespace Fipwave.QueueAccounts

open Relation ByteWords FwavProtocol BridgePorts BridgeMethods BridgeServer PortMoves BridgeMoves
  TransitionRun

section Counting

/-- The counter of a queue is the sum of the sizes of its frames. -/
def Counted (queue : Queue) : Prop := queue.bytes = entriesBytes queue.frames

instance (queue : Queue) : Decidable (Counted queue) := inferInstanceAs (Decidable (_ = _))

/-- A packet queue is counted and keeps to its limits. -/
structure Within (limits : PacketQueueLimits) (queue : Queue) : Prop where
  /-- It is counted. -/
  counted : Counted queue
  /-- Its packets. -/
  items : queue.frames.length ≤ limits.maxItems
  /-- Its bytes. -/
  bytes : queue.bytes ≤ limits.maxBytes

variable {queue : Queue} {limits : PacketQueueLimits} {maxAgeMs now : ℕ}

/-- The bytes of two lists of entries add up. -/
theorem entriesBytes_append (front back : List QueueEntry) :
    entriesBytes (front ++ back) = entriesBytes front + entriesBytes back := by
  unfold entriesBytes
  rw [List.map_append, List.sum_append]

theorem entriesBytes_cons (entry : QueueEntry) (rest : List QueueEntry) :
    entriesBytes (entry :: rest) = frameBytes entry.frame + entriesBytes rest := by
  unfold entriesBytes
  rw [List.map_cons, List.sum_cons]

/-- What is dropped for its age is no longer counted. -/
theorem Counted.dropStale (h : Counted queue) : Counted (dropStale maxAgeMs now queue) := by
  have hparts : entriesBytes queue.frames =
      entriesBytes (queue.frames.takeWhile (stale maxAgeMs now)) +
        entriesBytes (queue.frames.dropWhile (stale maxAgeMs now)) := by
    rw [← entriesBytes_append, List.takeWhile_append_dropWhile]
  have hbytes : queue.bytes = entriesBytes queue.frames := h
  unfold Counted BridgePorts.dropStale
  dsimp only
  omega

/-- Dropping what is too old makes a queue no larger. -/
theorem bytes_dropStale_le : (dropStale maxAgeMs now queue).bytes ≤ queue.bytes := Nat.sub_le _ _

/-- Dropping what is too old makes a queue no longer. -/
theorem length_dropStale_le :
    (dropStale maxAgeMs now queue).frames.length ≤ queue.frames.length :=
  (List.dropWhile_sublist _).length_le

/-- A queue within its limits stays so when entries are dropped. -/
theorem Within.dropStale (h : Within limits queue) : Within limits (dropStale maxAgeMs now queue) :=
  ⟨h.counted.dropStale, length_dropStale_le.trans h.items, bytes_dropStale_le.trans h.bytes⟩

/-- A head that leaves is no longer counted. -/
theorem Within.shift (h : Within limits queue) : Within limits (shift queue) := by
  unfold BridgePorts.shift
  split
  · exact h
  · next entry rest hframes =>
    have hcounted : queue.bytes = entriesBytes queue.frames := h.counted
    have hitems := h.items
    have hbytes := h.bytes
    rw [hframes, entriesBytes_cons] at hcounted
    rw [hframes, List.length_cons] at hitems
    refine ⟨?_, ?_, ?_⟩
    · unfold Counted
      dsimp only
      omega
    · dsimp only
      omega
    · dsimp only
      omega

/-- A packet that fits is counted. -/
theorem Within.push {options : PortOptions} (h : Within options.packetQueueLimits queue)
    {entry : QueueEntry} (hfits : fits options entry.frame queue = true) :
    Within options.packetQueueLimits (push entry queue) := by
  unfold fits at hfits
  rw [Bool.and_eq_true, decide_eq_true_eq, decide_eq_true_eq] at hfits
  have hcounted : queue.bytes = entriesBytes queue.frames := h.counted
  refine ⟨?_, ?_, ?_⟩
  · unfold Counted BridgePorts.push
    dsimp only
    rw [entriesBytes_append, entriesBytes_cons, hcounted]
    rfl
  · unfold BridgePorts.push
    dsimp only
    rw [List.length_append, List.length_singleton]
    omega
  · exact hfits.2

end Counting

/-- All queues are counted and keep to their limits. -/
structure Accounted (limits : PacketQueueLimits) (p : Ports) : Prop where
  /-- Queues by kind of frame are counted. -/
  counted : ∀ type, Counted (p.queues type)
  /-- They hold at most 256 KiB. -/
  bounded : ∀ type, (p.queues type).bytes ≤ maxMessageBytes
  /-- The queue to the FIPS worker. -/
  toFips : Within limits p.browserToFips
  /-- The queue to the browser. -/
  toBrowser : Within limits p.fipsToBrowser

/-- The queues of some ports. -/
def queuesOf (p : Ports) : (MessageType → Queue) × Queue × Queue :=
  (p.queues, p.browserToFips, p.fipsToBrowser)

section Untouched

variable {options : PortOptions} {p q : Ports}

/-- Whether the queues are accounted for depends on nothing but the queues. -/
theorem Accounted.congr {limits : PacketQueueLimits} (h : Accounted limits p)
    (hsame : queuesOf q = queuesOf p) : Accounted limits q := by
  obtain ⟨hqueues, hpackets⟩ := Prod.mk.inj hsame
  obtain ⟨hfips, hbrowser⟩ := Prod.mk.inj hpackets
  refine ⟨?_, ?_, ?_, ?_⟩
  · rw [hqueues]
    exact h.counted
  · rw [hqueues]
    exact h.bounded
  · rw [hfips]
    exact h.toFips
  · rw [hbrowser]
    exact h.toBrowser

@[simp] theorem queuesOf_refreshState : queuesOf (refreshState p) = queuesOf p := rfl

@[simp] theorem queuesOf_record (events : List RelayEvent) :
    queuesOf (record events p) = queuesOf p := rfl

@[simp] theorem queuesOf_modifySocket (socket : ℕ) (f : Socket → Socket) :
    queuesOf (modifySocket socket f p) = queuesOf p := rfl

@[simp] theorem queuesOf_modifyConnection (socket : ℕ)
    (f : BrowserConnectionState → BrowserConnectionState) :
    queuesOf (modifyConnection socket f p) = queuesOf p := rfl

@[simp] theorem queuesOf_send (socket : ℕ) (message : Outbound) :
    queuesOf (send socket message p) = queuesOf p := rfl

@[simp] theorem queuesOf_broadcast (message : Outbound) :
    queuesOf (broadcast message p) = queuesOf p := rfl

@[simp] theorem queuesOf_clearPending : queuesOf (clearPendingBrowserAdmission p) = queuesOf p :=
  rfl

/-- A guarded send counts what it sends and touches no queue. -/
@[simp] theorem queuesOf_trySend (socket : ℕ) (message : Outbound) :
    queuesOf (trySend options socket message p).2 = queuesOf p := by
  unfold trySend
  dsimp only
  split <;> rfl

/-- The same, for the state after the send. -/
theorem queuesOf_of_trySend {socket : ℕ} {message : Outbound} {thrown : Bool}
    (h : trySend options socket message p = (thrown, q)) : queuesOf q = queuesOf p := by
  have hsend : queuesOf (trySend options socket message p).2 = queuesOf p := queuesOf_trySend _ _
  rw [h] at hsend
  exact hsend

/-- The answer to a packet is sent past the queues. -/
@[simp] theorem queuesOf_notifyAdmission (packet : FwavFrame) (result : FipsPacketAdmission) :
    queuesOf (notifyFipsPacketAdmission options packet result p) = queuesOf p := by
  unfold notifyFipsPacketAdmission
  split
  · rfl
  · exact queuesOf_trySend _ _

/-- The worker is told whether a browser is armed past the queues. -/
@[simp] theorem queuesOf_notifyState (armed : Bool) :
    queuesOf (notifyFipsBrowserState armed p) = queuesOf p := by
  unfold notifyFipsBrowserState
  split <;> rfl

/-- A capability is sent past the queues. -/
@[simp] theorem queuesOf_issue (socket : ℕ) :
    queuesOf (issueAcousticCapability options socket p) = queuesOf p := by
  unfold issueAcousticCapability
  dsimp only
  split <;> rfl

/-- The browser is offered a packet that stays in its queue. -/
@[simp] theorem queuesOf_flushToBrowser : queuesOf (flushToBrowser options p) = queuesOf p := by
  unfold flushToBrowser
  split
  · rfl
  · split
    · rfl
    · split
      · rfl
      · split
        · rfl
        · split
          · next r hr =>
            have hsame := queuesOf_of_trySend hr
            exact hsame
          · next r hr =>
            have hsame := queuesOf_of_trySend hr
            exact hsame

/-- A packet that is offered again stays at the head of its queue. -/
@[simp] theorem queuesOf_retry (timer : ℕ) :
    queuesOf (retryBrowserAdmission options timer p) = queuesOf p := by
  unfold retryBrowserAdmission
  dsimp only
  split
  · rfl
  · next pending _ =>
    split
    · rfl
    · split
      · rfl
      · split
        · next r hr =>
          have hsame := queuesOf_of_trySend hr
          exact hsame
        · next r hr =>
          have hsame := queuesOf_of_trySend hr
          exact hsame

/-- A browser that comes in finds the queues as they are. -/
@[simp] theorem queuesOf_connectBrowser : queuesOf (connectBrowser options p) = queuesOf p := by
  unfold connectBrowser
  split
  · rfl
  · split
    · exact queuesOf_flushToBrowser.trans rfl
    · rfl

/-- A worker that is gone leaves the queues as they are. -/
@[simp] theorem queuesOf_closeFips (socket : ℕ) : queuesOf (closeFips socket p) = queuesOf p := by
  unfold closeFips
  dsimp only
  split <;> rfl

/-- Arming touches no queue. -/
@[simp] theorem queuesOf_arm (socket : ℕ) (payload : Bytes) :
    queuesOf (armAcousticSession socket payload p) = queuesOf p := by
  unfold armAcousticSession
  exact queuesOf_notifyState true

/-- A proof is taken or refused without a queue. -/
theorem queuesOf_acceptReady (socket : ℕ) (frame : FwavFrame) (now : ℕ) :
    queuesOf (leftPorts (acceptAcousticReady socket frame now p)) = queuesOf p := by
  unfold acceptAcousticReady
  split
  · rfl
  · split
    · rfl
    · dsimp only
      split
      · rfl
      · split
        · rfl
        · split
          · exact queuesOf_arm socket _
          · rfl

/-- A HELLO is answered past the queues. -/
theorem queuesOf_acceptHello (socket : ℕ) (frame : FwavFrame) :
    queuesOf (leftPorts (acceptHello options socket frame p)) = queuesOf p := by
  unfold acceptHello
  split
  · rfl
  · exact queuesOf_issue socket

/-- Taking the bridge out of a state that needs a reset touches no queue. -/
theorem queuesOf_recovers {a : Actor} {f : Ports → Ports} (hf : Recovers a f) :
    queuesOf (f p) = queuesOf p := by
  rcases hf with ⟨-, rfl⟩ | ⟨socket, frame, -, -, rfl⟩ <;> rfl

end Untouched

section Steps

variable {options : PortOptions} {p q : Ports}

/-- Empty queues are accounted for. -/
theorem accounted_empty {limits : PacketQueueLimits} (hqueues : p.queues = fun _ => {})
    (hfips : p.browserToFips = {}) (hbrowser : p.fipsToBrowser = {}) : Accounted limits p := by
  have hwithin : Within limits {} := ⟨rfl, Nat.zero_le _, Nat.zero_le _⟩
  refine ⟨?_, ?_, ?_, ?_⟩
  · intro type
    rw [hqueues]
    rfl
  · intro type
    rw [hqueues]
    exact Nat.zero_le _
  · rw [hfips]
    exact hwithin
  · rw [hbrowser]
    exact hwithin

/-- Cleared queues are empty. -/
theorem accounted_clearQueues {limits : PacketQueueLimits} : Accounted limits (clearQueues p) :=
  accounted_empty rfl rfl rfl

/-- Disarming clears the queues of packets. -/
theorem accounted_disarm {limits : PacketQueueLimits} (h : Accounted limits p) :
    Accounted limits (disarmAcousticSession p) := by
  unfold disarmAcousticSession
  split
  · exact h
  · exact accounted_clearQueues

/-- A reset leaves all queues empty. -/
theorem accounted_resetPorts {limits : PacketQueueLimits} (a : Actor) :
    Accounted limits (resetPorts a p) := accounted_empty rfl rfl rfl

/-- The close of the owner clears the queues, and that of another browser touches none. -/
theorem accounted_closeBrowser {limits : PacketQueueLimits} (h : Accounted limits p)
    (socket : ℕ) : Accounted limits (closeBrowser socket p).2 := by
  unfold closeBrowser
  dsimp only
  split
  · exact h.congr rfl
  · have hreleased : Accounted limits (releaseOwner (detach socket p)) :=
      accounted_disarm (h.congr rfl)
    split
    · exact hreleased.congr rfl
    · split
      · exact hreleased
      · exact hreleased.congr rfl

/-- A frame is queued by its kind, after the old ones of its kind were dropped. The bytes counted go
down with those and up with the frame. -/
theorem accounted_enqueue {limits : PacketQueueLimits} (h : Accounted limits p) (frame : FwavFrame)
    (now : ℕ) : Accounted limits (leftPorts (enqueue frame now p)) := by
  have hcounted : Counted (dropStale maxQueueAgeMs now (p.queues frame.type)) :=
    (h.counted frame.type).dropStale
  have hbounded : (dropStale maxQueueAgeMs now (p.queues frame.type)).bytes ≤ maxMessageBytes :=
    bytes_dropStale_le.trans (h.bounded frame.type)
  unfold enqueue
  split
  · exact h
  · dsimp only
    split
    · refine ⟨fun type => ?_, fun type => ?_, h.toFips, h.toBrowser⟩
      · change Counted (Function.update p.queues frame.type _ type)
        by_cases htype : type = frame.type
        · rw [htype, Function.update_self]
          exact hcounted
        · rw [Function.update_of_ne htype]
          exact h.counted type
      · change (Function.update p.queues frame.type _ type).bytes ≤ _
        by_cases htype : type = frame.type
        · rw [htype, Function.update_self]
          exact hbounded
        · rw [Function.update_of_ne htype]
          exact h.bounded type
    · next hroom =>
      refine ⟨fun type => ?_, fun type => ?_, h.toFips, h.toBrowser⟩
      · change Counted (Function.update (Function.update p.queues frame.type _) frame.type _ type)
        by_cases htype : type = frame.type
        · rw [htype, Function.update_self]
          unfold Counted at hcounted ⊢
          dsimp only
          rw [entriesBytes_append, entriesBytes_cons, hcounted]
          rfl
        · rw [Function.update_of_ne htype, Function.update_of_ne htype]
          exact h.counted type
      · change (Function.update (Function.update p.queues frame.type _) frame.type _ type).bytes ≤ _
        by_cases htype : type = frame.type
        · rw [htype, Function.update_self]
          exact not_lt.mp hroom
        · rw [Function.update_of_ne htype, Function.update_of_ne htype]
          exact h.bounded type

/-- A packet is queued only where its size fits, and its bytes are counted with it. -/
theorem accounted_enqueuePacket (h : Accounted options.packetQueueLimits p)
    (direction : PacketDirection) (frame : FwavFrame) (now : ℕ) :
    Accounted options.packetQueueLimits
      (leftPorts (enqueuePacket options direction frame now p)) := by
  unfold enqueuePacket
  cases direction with
  | browserToFips =>
    have hexpired : Accounted options.packetQueueLimits (expireToFips options now p) :=
      ⟨h.counted, h.bounded, h.toFips.dropStale, h.toBrowser⟩
    dsimp only
    split
    · exact hexpired
    · next hfits =>
      have hpush : Within options.packetQueueLimits
          (push ⟨p.entryCount, frame, now⟩ (expireToFips options now p).browserToFips) :=
        hexpired.toFips.push (by simpa using hfits)
      exact ⟨h.counted, h.bounded, hpush, h.toBrowser⟩
  | fipsToBrowser =>
    have hexpired : Accounted options.packetQueueLimits (expireToBrowser options now p) := by
      unfold expireToBrowser
      dsimp only
      split <;> exact ⟨h.counted, h.bounded, h.toFips, h.toBrowser.dropStale⟩
    dsimp only
    split
    · exact hexpired
    · next hfits =>
      have hpush : Within options.packetQueueLimits
          (push ⟨(expireToBrowser options now p).entryCount, frame, now⟩
            (expireToBrowser options now p).fipsToBrowser) :=
        hexpired.toBrowser.push (by simpa using hfits)
      exact ⟨hexpired.counted, hexpired.bounded, hexpired.toFips, hpush⟩

/-- Packets leave the queue to the FIPS worker one by one. -/
theorem accounted_forwardPackets (worker : ℕ) (entries : List QueueEntry)
    (h : Accounted options.packetQueueLimits p) :
    Accounted options.packetQueueLimits (forwardPackets options worker entries p) := by
  induction entries generalizing p with
  | nil => exact h.congr rfl
  | cons entry rest ih =>
    unfold forwardPackets
    dsimp only
    have hshift : Accounted options.packetQueueLimits
        { p with browserToFips := shift p.browserToFips } :=
      ⟨h.counted, h.bounded, h.toFips.shift, h.toBrowser⟩
    split
    · next r hr =>
      have hsame := queuesOf_of_trySend hr
      exact hshift.congr hsame
    · next r hr =>
      have hsame := queuesOf_of_trySend hr
      exact ih (hshift.congr hsame)

/-- What the worker gets is taken out of the count entry by entry. -/
theorem accounted_flushToFips (h : Accounted options.packetQueueLimits p) :
    Accounted options.packetQueueLimits (flushToFips options p) := by
  unfold flushToFips
  split
  · exact h
  · exact accounted_forwardPackets _ _ h

/-- A worker that comes in is sent what waits for it. -/
theorem accounted_connectFips (h : Accounted options.packetQueueLimits p) :
    Accounted options.packetQueueLimits (connectFips options p) := by
  unfold connectFips
  split
  · exact h.congr rfl
  · dsimp only
    have hflushed : Accounted options.packetQueueLimits
        (flushToFips options (admitFips p)) := accounted_flushToFips (h.congr rfl)
    split
    · exact hflushed.congr (queuesOf_notifyState true)
    · exact hflushed

/-- The first entry is taken out of the queue and its bytes out of the count. -/
theorem accounted_shiftToBrowser (h : Accounted options.packetQueueLimits p)
    (event : ℕ → RelayEvent) (entry : QueueEntry) :
    Accounted options.packetQueueLimits (shiftToBrowser event entry p) :=
  ⟨h.counted, h.bounded, h.toFips, h.toBrowser.shift⟩

/-- A packet that expires before it is accepted is taken out of the count. -/
theorem accounted_admissionQueueFull (h : Accounted options.packetQueueLimits p)
    (pending : PendingBrowserAdmission) (now : ℕ) : Accounted options.packetQueueLimits
      (leftPorts (admissionQueueFull options pending now p)) := by
  unfold admissionQueueFull
  dsimp only
  have hnotified : Accounted options.packetQueueLimits (if pending.attempts = 1 then
      notifyFipsPacketAdmission options pending.entry.frame .queueFull p else p) := by
    split
    · exact h.congr (queuesOf_notifyAdmission _ _)
    · exact h
  generalize (if pending.attempts = 1 then
    notifyFipsPacketAdmission options pending.entry.frame .queueFull p else p) = q at hnotified ⊢
  split
  · split
    · exact hnotified
    · exact (accounted_shiftToBrowser hnotified .expired pending.entry).congr
        queuesOf_flushToBrowser
  · exact hnotified.congr rfl

/-- An answer of the browser takes at most the head from its queue. -/
theorem accounted_acceptAdmission (h : Accounted options.packetQueueLimits p) (socket : ℕ)
    (frame : FwavFrame) (now : ℕ) : Accounted options.packetQueueLimits
      (leftPorts (acceptBrowserAdmission options socket frame now p)) := by
  unfold acceptBrowserAdmission
  split
  · exact h
  · next pending _ =>
    split
    · exact h
    · split
      · exact h
      · split
        · exact h
        · split
          · exact h
          · change Accounted _ (admissionAccepted options pending p)
            unfold admissionAccepted
            split
            · exact h.congr queuesOf_flushToBrowser
            · dsimp only
              have hshift := accounted_shiftToBrowser h .accepted pending.entry
              refine Accounted.congr ?_ queuesOf_flushToBrowser
              refine Accounted.congr ?_ queuesOf_refreshState
              refine Accounted.congr ?_ (queuesOf_notifyAdmission _ _)
              exact hshift.congr rfl
          · exact accounted_admissionQueueFull h pending now

/-- A packet of the browser is counted, and taken out again when it is sent on. -/
theorem accounted_acceptBrowserPacket (h : Accounted options.packetQueueLimits p)
    (frame : FwavFrame) (now : ℕ) : Accounted options.packetQueueLimits
      (leftPorts (acceptBrowserPacket options frame now p)) := by
  unfold acceptBrowserPacket
  split
  · exact h
  · have hqueued := accounted_enqueuePacket h .browserToFips frame now
    split
    · next thrown hthrown =>
      rw [hthrown] at hqueued
      exact hqueued
    · next q hq =>
      rw [hq] at hqueued
      exact accounted_flushToFips hqueued

/-- A packet of the worker is counted, and stays so until it is answered. -/
theorem accounted_handleFips (h : Accounted options.packetQueueLimits p) (socket : ℕ)
    (message : RawMessage) (now : ℕ) : Accounted options.packetQueueLimits
      (handleFipsMessage options socket message now p) := by
  have haccepted : Accounted options.packetQueueLimits
      (leftPorts (acceptFipsPacket options socket message now p)) := by
    unfold acceptFipsPacket
    split
    · exact h
    · split
      · exact h
      · next frame _ =>
        split
        · exact h
        · split
          · exact h
          · dsimp only
            split
            · exact h.congr rfl
            · have htaken : Accounted options.packetQueueLimits
                  (modifySocket socket (fun k => { k with lastSequence := frame.sequence }) p) :=
                h.congr rfl
              have hqueued := accounted_enqueuePacket htaken .fipsToBrowser frame now
              split
              · next thrown hthrown =>
                rw [hthrown] at hqueued
                exact hqueued
              · next q hq =>
                rw [hq] at hqueued
                exact hqueued.congr queuesOf_flushToBrowser
  unfold handleFipsMessage
  split
  · next thrown hthrown =>
    rw [hthrown] at haccepted
    exact haccepted.congr rfl
  · next q hq =>
    rw [hq] at haccepted
    exact haccepted

/-- A DISARM clears the queues of packets or is refused. -/
theorem accounted_acceptDisarm (h : Accounted options.packetQueueLimits p) (socket : ℕ)
    (frame : FwavFrame) : Accounted options.packetQueueLimits
      (leftPorts (acceptAcousticDisarm options socket frame p)) := by
  unfold acceptAcousticDisarm
  split
  · exact h
  · split
    · exact h
    · exact (accounted_disarm h).congr (queuesOf_issue socket)

/-- Every move keeps the accounts. -/
theorem accounted_portMove {a : Actor} (h : Accounted options.packetQueueLimits p)
    (hmove : PortMove options a p q) : Accounted options.packetQueueLimits q := by
  cases hmove with
  | greets => exact h.congr queuesOf_connectBrowser
  | joins => exact accounted_connectFips h
  | receives => exact h.congr rfl
  | notes => exact h.congr rfl
  | rejects => exact h.congr rfl
  | leavesFips => exact h.congr (queuesOf_closeFips _)
  | leaves => exact accounted_closeBrowser h _
  | retries => exact h.congr (queuesOf_retry _)
  | submits now => exact accounted_handleFips h _ _ now
  | answers now => exact accounted_acceptAdmission h _ _ now
  | readies now => exact h.congr (queuesOf_acceptReady _ _ now)
  | disarms => exact accounted_acceptDisarm h _ _
  | hails => exact h.congr (queuesOf_acceptHello _ _)
  | takes => exact h.congr rfl
  | @forwards r socket frame now hcarries htype hunderway haccept =>
    have haccepted := accounted_acceptBrowserPacket h frame now
    rw [haccept] at haccepted
    exact haccepted.congr rfl
  | @forwardFails thrown frame now htype haccept =>
    have haccepted := accounted_acceptBrowserPacket h frame now
    rw [haccept] at haccepted
    exact haccepted
  | errs => exact (accounted_disarm h).congr (queuesOf_issue _)
  | exhausts hf => exact h.congr (queuesOf_recovers hf)
  | resets => exact accounted_resetPorts a
  | endsReset => exact h.congr rfl
  | announces => exact h.congr rfl
  | restarts => exact h.congr rfl
  | flushes => exact h.congr queuesOf_flushToBrowser
  | enqueues frame now => exact accounted_enqueue h frame now
  | tells => exact h.congr rfl
  | broadcasts => exact h.congr rfl
  | refuses => exact h.congr rfl

end Steps

/-- In every state a bridge reaches, each queue counts the bytes of its frames, the packet queues
keep to their limits and the other queues hold at most 256 KiB. -/
theorem accounted_run (options : BridgeServerOptions) (events : List Event) :
    Accounted options.ports.packetQueueLimits
      (run (step options) (createBridgeServer options) events).state.ports := by
  refine bridge_always (I := fun b => Accounted options.ports.packetQueueLimits b.ports)
    ?_ ?_ ?_ events
  · intro a b b' _ hprepares hI
    cases hprepares with
    | message socket message =>
      refine hI.congr ?_
      change queuesOf (takeMessage socket message b.ports) = _
      unfold takeMessage
      dsimp only
      split <;> rfl
    | call => exact hI
  · intro a b b' _ hmove hI
    cases hmove with
    | ports h => exact accounted_portMove hI h
    | trial h => exact hI
    | reads => exact hI
    | plays encoded hfresh => exact hI.congr rfl
    | results socket epoch direction cold hfresh hnoted => exact hI.congr rfl
    | answers socket epoch hnone hnoted => exact hI.congr rfl
  · exact accounted_empty rfl rfl rfl

end Fipwave.QueueAccounts
