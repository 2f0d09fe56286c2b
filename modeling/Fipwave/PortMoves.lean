import Fipwave.BridgeServer
import Fipwave.PacketRelay

/-!
# What can happen to the endpoints of a bridge

Every change of the ports is one of a few moves of some actor, each with what
the actor has checked. A packet is forwarded and a stream begins anew only for
the handler that is in the middle of it, and the news of a reset is spread only
by an actor whose reset is under way. Nobody but its handler touches what a
socket is in the middle of.
-/

namespace Fipwave.PortMoves

open ByteWords FwavProtocol QualificationSession BridgePorts BridgeServer

/-- The actor handles a message that carries the frame. -/
def Carries (a : Actor) (socket : ℕ) (frame : FwavFrame) : Prop :=
  ∃ rawData, a = .handler socket ⟨true, rawData⟩ ∧ decodeFrame rawData = .ok frame

/-- The actor handles a frame of the current epoch that its connection may send. -/
structure Takes (a : Actor) (socket : ℕ) (frame : FwavFrame) (p : Ports) : Prop where
  /-- It is the message that is handled. -/
  message : Carries a socket frame
  /-- It is of the current epoch. -/
  epoch : frame.epoch = p.epoch
  /-- Before a reset nothing but a RESET is taken. -/
  open_ : (p.sockets socket).connection.mustResetBeforeUse = true → frame.type = .reset

/-- Why the answer to a packet is refused. -/
def RefusesAnswer (socket : ℕ) (frame : FwavFrame) (p : Ports) : Prop :=
  frame.epoch ≠ p.epoch ∨ (p.sockets socket).connection.mustResetBeforeUse = true ∨
    ∃ pending, p.pendingBrowserAdmission = some pending ∧
      (pending.owner = socket ∧ p.owner = some socket ∧ frame.epoch = p.epoch ∧
          pending.entry.frame.sequence < frame.sequence ∨
        p.fipsToBrowser.frames.head? ≠ some pending.entry)

/-- A call of the operator resets the bridge, or a RESET, which takes its connection out of
recovery. -/
def Recovers (a : Actor) (f : Ports → Ports) : Prop :=
  (∃ call, a = .operatorReset call) ∧ f = id ∨
    ∃ socket frame, Carries a socket frame ∧ frame.type = .reset ∧
      f = modifyConnection socket (recover frame.sequence)

/-- What is only noted about a connection does not change what it may do. -/
def Noted (c d : BrowserConnectionState) : Prop :=
  d.mustResetBeforeUse = c.mustResetBeforeUse ∧ d.acousticCapability = c.acousticCapability ∧
    d.acousticCapabilityUsed = c.acousticCapabilityUsed ∧ d.issue = c.issue

/-- A message that only informs. -/
def isNews : Outbound → Bool
  | .session _ => true
  | .loopbackReport => true
  | _ => false

/-- The peer of a socket begins to close it, or a message of it was refused. -/
def Rejects (a : Actor) (socket : ℕ) (p : Ports) : Prop :=
  a = .hangup socket ∨
    (∃ message, a = .handler socket message) ∧ ∃ m ∈ p.refused, m.socket = socket

/-- A move of an actor. -/
inductive PortMove (options : PortOptions) (a : Actor) : Ports → Ports → Prop
  | greets {p : Ports} (ha : a = .greeting p.socketCount) :
      PortMove options a p (connectBrowser options p)
  | joins {p : Ports} (ha : a = .environment) : PortMove options a p (connectFips options p)
  | receives {p : Ports} {socket : ℕ} {message : RawMessage} (ha : a = .arrival socket message)
      (hattached : (p.sockets socket).attached = true) :
      PortMove options a p (receiveMessage socket message p)
  | notes {p : Ports} {socket : ℕ} {f : BrowserConnectionState → BrowserConnectionState}
      (hf : ∀ c, Noted c (f c)) : PortMove options a p (modifyConnection socket f p)
  | rejects {p : Ports} (socket : ℕ) (h : Rejects a socket p) :
      PortMove options a p (rejectSocket socket p)
  | leavesFips {p : Ports} {socket : ℕ} (ha : a = .closure socket)
      (hattached : (p.sockets socket).attached = true)
      (hendpoint : (p.sockets socket).endpoint = .fips) :
      PortMove options a p (closeFips socket p)
  | leaves {p : Ports} {socket : ℕ} (ha : a = .closure socket)
      (hattached : (p.sockets socket).attached = true)
      (hendpoint : (p.sockets socket).endpoint = .browser) :
      PortMove options a p (closeBrowser socket p).2
  | retries {p : Ports} {timer : ℕ} (ha : a = .environment) (htimer : timer ∈ p.retryTimers) :
      PortMove options a p (retryBrowserAdmission options timer p)
  | submits {p : Ports} {socket : ℕ} {message : RawMessage} (now : ℕ)
      (ha : a = .handler socket message) (hendpoint : (p.sockets socket).endpoint = .fips) :
      PortMove options a p (handleFipsMessage options socket message now p)
  | answers {p : Ports} {socket : ℕ} {frame : FwavFrame} (now : ℕ) (h : Takes a socket frame p)
      (htype : frame.type = .fipsPacketAdmission) :
      PortMove options a p (leftPorts (acceptBrowserAdmission options socket frame now p))
  | readies {p : Ports} {socket : ℕ} {frame : FwavFrame} (now : ℕ) (h : Takes a socket frame p)
      (htype : frame.type = .acousticReady) :
      PortMove options a p (leftPorts (acceptAcousticReady socket frame now p))
  | disarms {p : Ports} {socket : ℕ} {frame : FwavFrame} (h : Takes a socket frame p)
      (htype : frame.type = .acousticDisarm) :
      PortMove options a p (leftPorts (acceptAcousticDisarm options socket frame p))
  | hails {p : Ports} {socket : ℕ} {frame : FwavFrame} (h : Takes a socket frame p)
      (htype : frame.type = .hello) :
      PortMove options a p (leftPorts (acceptHello options socket frame p))
  | takes {p : Ports} {socket : ℕ} {frame : FwavFrame} (h : Takes a socket frame p)
      (horder : (p.sockets socket).lastSequence < frame.sequence) :
      PortMove options a p (takeSequence socket frame p)
  | forwards {p q : Ports} {socket : ℕ} {frame : FwavFrame} {now : ℕ}
      (hcarries : Carries a socket frame) (htype : frame.type = .fipsPacket)
      (hunderway : (p.sockets socket).underway = .packet frame)
      (h : acceptBrowserPacket options frame now p = .ok q) :
      PortMove options a p (endUnderway socket q)
  | forwardFails {p : Ports} {thrown : Thrown} {frame : FwavFrame} {now : ℕ}
      (htype : frame.type = .fipsPacket)
      (h : acceptBrowserPacket options frame now p = .error thrown) :
      PortMove options a p thrown.ports
  | errs {p : Ports} {socket : ℕ} {frame : FwavFrame} (h : Carries a socket frame)
      (htype : frame.type = .error) :
      PortMove options a p (issueAcousticCapability options socket (disarmAcousticSession p))
  | exhausts {p : Ports} {f : Ports → Ports} (hf : Recovers a f) (hepoch : maxEpoch ≤ p.epoch) :
      PortMove options a p (f p)
  | resets {p : Ports} {f : Ports → Ports} (hf : Recovers a f) (hepoch : p.epoch < maxEpoch) :
      PortMove options a p (resetPorts a (disarmAcousticSession (f p)))
  | endsReset {p : Ports} (h : a ∈ p.resetsUnderway) : PortMove options a p (endReset a p)
  | announces {p : Ports} (h : a ∈ p.resetsUnderway) : PortMove options a p (announceReset a p)
  | restarts {p : Ports} {socket : ℕ} {frame : FwavFrame} (hcarries : Carries a socket frame)
      (htype : frame.type = .reset) (hunderway : (p.sockets socket).underway = .resetting) :
      PortMove options a p (restartStream socket p)
  | flushes {p : Ports} : PortMove options a p (flushToBrowser options p)
  | enqueues {p : Ports} (frame : FwavFrame) (now : ℕ) :
      PortMove options a p (leftPorts (enqueue frame now p))
  | tells {p : Ports} (socket : ℕ) {message : Outbound} (h : isNews message = true) :
      PortMove options a p (send socket message p)
  | broadcasts {p : Ports} {message : Outbound} (h : isNews message = true) :
      PortMove options a p (broadcast message p)
  | refuses {p : Ports} {socket : ℕ} {message : RawMessage} (ha : a = .handler socket message)
      (h : ∀ frame result, answerOf message = some (frame, result) →
        RefusesAnswer socket frame p) : PortMove options a p (refuse socket message p)

/-- Sockets with a connection or with messages are among those there are. -/
def Placed (p : Ports) : Prop :=
  ∀ k, (p.sockets k).attached = true ∨ (p.sockets k).inbox ≠ [] → k < p.socketCount

/-- The peer of a socket begins to close it, its close was handled, or a message of it was
refused. -/
def Parts (a : Actor) (socket : ℕ) (p : Ports) : Prop :=
  a = .hangup socket ∨ (p.sockets socket).attached = false ∨ ∃ m ∈ p.refused, m.socket = socket

/-- What one actor does leaves others in the middle of what they were in the middle of, and
browsers connected that it does not part from. -/
structure Spares (a : Actor) (p q : Ports) : Prop where
  /-- Sockets stay. -/
  count : p.socketCount ≤ q.socketCount
  /-- They serve the same endpoint. -/
  endpoint : ∀ k < p.socketCount, (q.sockets k).endpoint = (p.sockets k).endpoint
  /-- None is admitted again. -/
  attached : ∀ k < p.socketCount, (q.sockets k).attached = true → (p.sockets k).attached = true
  /-- Messages that were refused stay on record. -/
  refused : p.refused ⊆ q.refused
  /-- Sockets of browsers stay open. -/
  connected : ∀ k < p.socketCount, (p.sockets k).endpoint = .browser → isOpen k p = true →
    isOpen k q = true ∨ Parts a k q
  /-- Handlers of other sockets are in the middle of the same. -/
  underway : ∀ k < p.socketCount, handles a k = false →
    (q.sockets k).underway = (p.sockets k).underway
  /-- Resets of others are under way. -/
  resets : ∀ r ≠ a, r ∈ p.resetsUnderway → r ∈ q.resetsUnderway
  /-- Sockets are among those there are. -/
  placed : Placed p → Placed q

section Spares

variable {a : Actor} {p q r : Ports}

/-- A socket that is parted from stays so, since refusals stay on record and closes are not
undone. -/
theorem Parts.spares {socket : ℕ} (h : Parts a socket p) (hspares : Spares a p q)
    (hsocket : socket < p.socketCount) : Parts a socket q := by
  rcases h with h | h | ⟨m, hm, hsame⟩
  · exact .inl h
  · refine .inr (.inl (Bool.eq_false_iff.mpr (fun hattached => ?_)))
    rw [hspares.attached socket hsocket hattached] at h
    cases h
  · exact .inr (.inr ⟨m, hspares.refused hm, hsame⟩)

theorem Spares.refl (a : Actor) (p : Ports) : Spares a p p :=
  ⟨le_rfl, fun _ _ => rfl, fun _ _ h => h, fun _ h => h, fun _ _ _ h => .inl h, fun _ _ _ => rfl,
    fun _ _ h => h, id⟩

theorem Spares.trans (hpq : Spares a p q) (hqr : Spares a q r) : Spares a p r := by
  refine ⟨hpq.count.trans hqr.count,
    fun k hk => (hqr.endpoint k (hk.trans_le hpq.count)).trans (hpq.endpoint k hk),
    fun k hk h => hpq.attached k hk (hqr.attached k (hk.trans_le hpq.count) h),
    fun m hm => hqr.refused (hpq.refused hm), fun k hk hbrowser hopen => ?_,
    fun k hk ha => (hqr.underway k (hk.trans_le hpq.count) ha).trans (hpq.underway k hk ha),
    fun x hx h => hqr.resets x hx (hpq.resets x hx h), hqr.placed ∘ hpq.placed⟩
  rcases hpq.connected k hk hbrowser hopen with hopen' | hparts
  · exact hqr.connected k (hk.trans_le hpq.count) ((hpq.endpoint k hk).trans hbrowser) hopen'
  · exact .inr (hparts.spares hqr (hk.trans_le hpq.count))

/-- A socket serves the same endpoint, is in the middle of the same, has the same messages, and
was admitted if it is now. -/
def SameSocket (k l : Socket) : Prop :=
  l.endpoint = k.endpoint ∧ l.underway = k.underway ∧ (l.attached = true → k.attached = true) ∧
    l.inbox = k.inbox

/-- Changes after which each socket is the same, and is as open or closed for a reason. -/
theorem spares_of_same (hcount : q.socketCount = p.socketCount)
    (hrefused : p.refused ⊆ q.refused) (hresets : q.resetsUnderway = p.resetsUnderway)
    (hsockets : ∀ k, SameSocket (p.sockets k) (q.sockets k))
    (hconnected : ∀ k, (p.sockets k).endpoint = .browser →
      (q.sockets k).readyState = (p.sockets k).readyState ∨ Parts a k q) : Spares a p q := by
  refine ⟨hcount.ge, fun k _ => (hsockets k).1, fun k _ => (hsockets k).2.2.1, hrefused,
    fun k _ hbrowser hopen => ?_, fun k _ _ => (hsockets k).2.1, fun x _ h => hresets ▸ h,
    fun hp k hk => ?_⟩
  · refine (hconnected k hbrowser).imp (fun hsame => ?_) id
    unfold isOpen at hopen ⊢
    rwa [hsame]
  · rw [hcount]
    refine hp k (hk.imp (hsockets k).2.2.1 ?_)
    rw [(hsockets k).2.2.2]
    exact id

/-- Changes after which each socket is the same and as open as before. -/
theorem spares_of_sockets (hcount : q.socketCount = p.socketCount)
    (hrefused : q.refused = p.refused) (hresets : q.resetsUnderway = p.resetsUnderway)
    (hsockets : ∀ k, SameSocket (p.sockets k) (q.sockets k) ∧
      (q.sockets k).readyState = (p.sockets k).readyState) : Spares a p q :=
  spares_of_same hcount (fun _ hm => hrefused ▸ hm) hresets (fun k => (hsockets k).1)
    (fun k _ => .inl (hsockets k).2)

/-- A change of one socket that stays the same and is as open or closed for a reason. -/
theorem spares_modifySame {socket : ℕ} {f : Socket → Socket} (hf : ∀ k, SameSocket k (f k))
    (hconnected : ∀ k, (f k).readyState = k.readyState ∨
      (p.sockets socket).endpoint = .fips ∨ Parts a socket (modifySocket socket f p)) :
    Spares a p (modifySocket socket f p) := by
  refine spares_of_same rfl (fun _ h => h) rfl (fun k => ?_) (fun k hbrowser => ?_)
  · rw [sockets_modifySocket]
    split
    · next heq => exact heq ▸ hf _
    · exact ⟨rfl, rfl, id, rfl⟩
  · by_cases heq : k = socket
    · subst heq
      rcases hconnected (p.sockets k) with hsame | hfips | hparts
      · rw [sockets_modifySocket, if_pos rfl]
        exact .inl hsame
      · rw [hbrowser] at hfips
        cases hfips
      · exact .inr hparts
    · rw [sockets_modifySocket, if_neg heq]
      exact .inl rfl

/-- A change of one socket that stays the same and as open as before. -/
theorem spares_modifySocket {socket : ℕ} {f : Socket → Socket}
    (hf : ∀ k, SameSocket k (f k) ∧ (f k).readyState = k.readyState) :
    Spares a p (modifySocket socket f p) :=
  spares_modifySame (fun k => (hf k).1) (fun k => .inl (hf k).2)

/-- A change of one socket, which is as open as before: only its handler changes what it is in the
middle of, and it was admitted or had messages if it is or has now. -/
theorem spares_modifyOne {socket : ℕ} {f : Socket → Socket}
    (hf : ∀ k, (f k).endpoint = k.endpoint ∧ (f k).readyState = k.readyState ∧
      (f k).attached = k.attached)
    (hunderway : handles a socket = false → ∀ k, (f k).underway = k.underway)
    (hplaced : (f (p.sockets socket)).inbox ≠ [] →
      (p.sockets socket).attached = true ∨ (p.sockets socket).inbox ≠ []) :
    Spares a p (modifySocket socket f p) := by
  have hsame : ∀ k, ((modifySocket socket f p).sockets k).endpoint = (p.sockets k).endpoint ∧
      ((modifySocket socket f p).sockets k).readyState = (p.sockets k).readyState ∧
      ((modifySocket socket f p).sockets k).attached = (p.sockets k).attached :=
    fun k => ⟨view_modifySocket Socket.endpoint (fun s => (hf s).1) socket p k,
      view_modifySocket Socket.readyState (fun s => (hf s).2.1) socket p k,
      view_modifySocket Socket.attached (fun s => (hf s).2.2) socket p k⟩
  refine ⟨le_rfl, fun k _ => (hsame k).1, fun k _ h => (hsame k).2.2 ▸ h, fun _ h => h,
    fun k _ _ hopen => .inl ?_, fun k _ hk => ?_, fun _ _ h => h, fun hp k hk => ?_⟩
  · unfold isOpen at hopen ⊢
    rwa [(hsame k).2.1]
  · rw [sockets_modifySocket]
    split
    · next heq => exact heq ▸ hunderway (heq ▸ hk) _
    · rfl
  · rw [(hsame k).2.2, sockets_modifySocket] at hk
    rcases hk with hattached | hinbox
    · exact hp k (.inl hattached)
    · split at hinbox
      · next heq => exact heq ▸ hp socket (hplaced hinbox)
      · exact hp k (.inr hinbox)

/-- A change of the socket an actor handles that keeps its messages. -/
theorem spares_modifyHandled {socket : ℕ} {message : RawMessage} {f : Socket → Socket}
    (ha : a = .handler socket message)
    (hf : ∀ k, (f k).endpoint = k.endpoint ∧ (f k).readyState = k.readyState ∧
      (f k).attached = k.attached ∧ (f k).inbox = k.inbox) :
    Spares a p (modifySocket socket f p) := by
  refine spares_modifyOne (fun k => ⟨(hf k).1, (hf k).2.1, (hf k).2.2.1⟩) (fun hk => ?_)
    (fun hk => .inr ?_)
  · simp [ha, handles] at hk
  · rwa [(hf _).2.2.2] at hk

/-- What a connection keeps for itself concerns no handler. -/
theorem spares_modifyConnection (socket : ℕ)
    (f : BrowserConnectionState → BrowserConnectionState) (p : Ports) :
    Spares a p (modifyConnection socket f p) :=
  spares_modifySocket (fun _ => ⟨⟨rfl, rfl, id, rfl⟩, rfl⟩)

/-- A message to a socket concerns no handler. -/
theorem spares_send (socket : ℕ) (message : Outbound) (p : Ports) :
    Spares a p (send socket message p) :=
  spares_modifySocket (fun _ => ⟨⟨rfl, rfl, id, rfl⟩, rfl⟩)

/-- A message to every socket concerns no handler. -/
theorem spares_broadcast (message : Outbound) (p : Ports) : Spares a p (broadcast message p) := by
  refine spares_of_sockets rfl rfl rfl (fun k => ?_)
  unfold broadcast
  dsimp only
  split <;> exact ⟨⟨rfl, rfl, id, rfl⟩, rfl⟩

/-- Relaying packets and talking to sockets leaves every handler where it was. -/
theorem spares_relayed (h : Relayed p q) : Spares a p q := by
  refine spares_of_sockets h.socketCount h.refused h.resetsUnderway (fun k => ?_)
  obtain ⟨messages, -, hk⟩ := h.said k
  rw [hk]
  exact ⟨⟨rfl, rfl, id, rfl⟩, rfl⟩

/-- The worker is told whether a browser is armed, which concerns no handler. -/
theorem spares_notify (armed : Bool) (p : Ports) :
    Spares a p (notifyFipsBrowserState armed p) := by
  unfold notifyFipsBrowserState
  split
  · exact spares_send _ _ p
  · exact .refl a p

/-- Disarming changes no socket but for what the worker is told. -/
theorem spares_disarm (p : Ports) : Spares a p (disarmAcousticSession p) := by
  unfold disarmAcousticSession
  split
  · exact .refl a p
  · have hdisarmed : Spares a p { p with acousticReady := false, armedBy := none } :=
      spares_of_sockets rfl rfl rfl (fun _ => ⟨⟨rfl, rfl, id, rfl⟩, rfl⟩)
    refine (hdisarmed.trans (spares_notify false _)).trans (.trans ?_
      (spares_relayed (relayed_clearQueues _)))
    exact spares_of_sockets rfl rfl rfl (fun _ => ⟨⟨rfl, rfl, id, rfl⟩, rfl⟩)

/-- A capability concerns the connection it is issued to. -/
theorem spares_issue (options : PortOptions) (socket : ℕ) (p : Ports) :
    Spares a p (issueAcousticCapability options socket p) := by
  have hissued : Spares a p { p with issueCount := p.issueCount + 1 } :=
    spares_of_sockets rfl rfl rfl (fun _ => ⟨⟨rfl, rfl, id, rfl⟩, rfl⟩)
  have hchanged := hissued.trans (spares_modifyConnection socket (fun c => { c with
    acousticCapability := options.randomBytes p.issueCount
    acousticCapabilityUsed := false
    issue := some p.issueCount }) _)
  unfold issueAcousticCapability
  dsimp only
  split
  · exact hchanged.trans (spares_send _ _ _)
  · exact hchanged

/-- A socket that comes in is the next one. -/
theorem spares_admit (socket : Socket) {q : Ports}
    (hsockets : q.sockets = Function.update p.sockets p.socketCount socket)
    (hcount : q.socketCount = p.socketCount + 1) (hrefused : q.refused = p.refused)
    (hresets : q.resetsUnderway = p.resetsUnderway) : Spares a p q := by
  have hold : ∀ k < p.socketCount, q.sockets k = p.sockets k := by
    intro k hk
    rw [hsockets, Function.update_of_ne hk.ne]
  refine ⟨by omega, fun k hk => by rw [hold k hk], fun k hk h => hold k hk ▸ h,
    fun _ hm => hrefused ▸ hm,
    fun k hk _ hopen => .inl ?_, fun k hk _ => by rw [hold k hk], fun x _ h => hresets ▸ h,
    fun hp k hk => ?_⟩
  · unfold isOpen at hopen ⊢
    rwa [hold k hk]
  · by_cases heq : k = p.socketCount
    · omega
    · rw [hsockets, Function.update_of_ne heq] at hk
      have := hp k hk
      omega

/-- A browser that may not come in gets a place of its own that was never attached. -/
theorem spares_turnAway (p : Ports) : Spares a p (turnAway p) :=
  spares_admit _ rfl rfl rfl rfl

/-- A browser that comes in takes a place behind all others. -/
theorem spares_connectBrowser (options : PortOptions) (p : Ports) :
    Spares a p (connectBrowser options p) := by
  have hadmitted : Spares a p (admitBrowser p) := spares_admit _ rfl rfl rfl rfl
  unfold connectBrowser
  split
  · exact spares_turnAway p
  · split
    · exact hadmitted.trans (spares_relayed (relayed_flushToBrowser options _))
    · exact hadmitted

/-- A worker that comes in takes a place behind all others. -/
theorem spares_connectFips (options : PortOptions) (p : Ports) :
    Spares a p (connectFips options p) := by
  have hadmitted : Spares a p (admitFips p) := spares_admit _ rfl rfl rfl rfl
  unfold connectFips
  split
  · exact spares_turnAway p
  · dsimp only
    have hflushed := hadmitted.trans (spares_relayed (relayed_flushToFips options _))
    split
    · exact hflushed.trans (spares_notify true _)
    · exact hflushed

/-- The close of a socket concerns this socket alone. -/
theorem spares_detach (socket : ℕ) (p : Ports) : Spares a p (detach socket p) := by
  refine spares_modifySame (fun _ => ⟨rfl, rfl, nofun, rfl⟩) (fun _ => .inr (.inr (.inr (.inl ?_))))
  rw [sockets_modifySocket, if_pos rfl]

/-- A worker that is gone leaves browsers connected. -/
theorem spares_closeFips (socket : ℕ) (p : Ports) : Spares a p (closeFips socket p) := by
  have hdetached : Spares a p (detach socket p) := spares_detach socket p
  unfold closeFips
  dsimp only
  split
  · exact hdetached.trans (spares_of_sockets rfl rfl rfl (fun _ => ⟨⟨rfl, rfl, id, rfl⟩, rfl⟩))
  · exact hdetached

/-- Giving up the browser endpoint closes no socket. -/
theorem spares_releaseOwner (p : Ports) : Spares a p (releaseOwner p) := by
  unfold releaseOwner
  have hreleased : Spares a p { clearPendingBrowserAdmission p with owner := none } :=
    (spares_relayed (relayed_clearPending p)).trans
      (spares_of_sockets rfl rfl rfl (fun _ => ⟨⟨rfl, rfl, id, rfl⟩, rfl⟩))
  exact hreleased.trans (spares_disarm _)

/-- A browser that is gone leaves the others connected. -/
theorem spares_closeBrowser (socket : ℕ) (p : Ports) :
    Spares a p (closeBrowser socket p).2 := by
  have hdetached : Spares a p (detach socket p) := spares_detach socket p
  unfold closeBrowser
  dsimp only
  split
  · exact hdetached
  · have hreleased := hdetached.trans (spares_releaseOwner _)
    split
    · exact hreleased.trans (spares_of_sockets rfl rfl rfl (fun _ => ⟨⟨rfl, rfl, id, rfl⟩, rfl⟩))
    · split
      · exact hreleased
      · exact hreleased.trans (spares_of_sockets rfl rfl rfl (fun _ => ⟨⟨rfl, rfl, id, rfl⟩, rfl⟩))

/-- A socket that is closed because of an error serves FIPS, or a message of it was refused. -/
theorem spares_rejectSocket {socket : ℕ} {p : Ports}
    (h : (p.sockets socket).endpoint = .fips ∨ Rejects a socket p) :
    Spares a p (rejectSocket socket p) :=
  spares_modifySame (fun _ => ⟨rfl, rfl, id, rfl⟩)
    (fun _ => .inr (h.imp id (fun hrejects => hrejects.imp id (fun hrefused => .inr hrefused.2))))

/-- The ports when the sequence of a packet of the FIPS worker is taken. -/
def takeFipsSequence (socket sequence : ℕ) (p : Ports) : Ports :=
  modifySocket socket (fun k => { k with lastSequence := sequence }) p

/-- A message of the FIPS worker is refused and ends its connection, or its packet is queued and
offered to the browser. -/
theorem handleFipsMessage_cases (options : PortOptions) (socket : ℕ) (message : RawMessage)
    (now : ℕ) (p : Ports) : handleFipsMessage options socket message now p = rejectSocket socket p ∨
      ∃ frame : FwavFrame, message.isBinary = true ∧ decodeFrame message.rawData = .ok frame ∧
        frame.type = .fipsPacket ∧ frame.epoch = p.epoch ∧
        (p.sockets socket).lastSequence < frame.sequence ∧
        (handleFipsMessage options socket message now p =
            rejectSocket socket (takeFipsSequence socket frame.sequence p) ∨
          (∃ thrown, enqueuePacket options .fipsToBrowser frame now
              (takeFipsSequence socket frame.sequence p) = .error thrown ∧
            handleFipsMessage options socket message now p =
              rejectSocket socket thrown.ports) ∨
          ∃ q, enqueuePacket options .fipsToBrowser frame now
              (takeFipsSequence socket frame.sequence p) = .ok q ∧
            handleFipsMessage options socket message now p = flushToBrowser options q) := by
  unfold handleFipsMessage acceptFipsPacket
  split
  · next thrown heq =>
    split at heq
    · cases heq
      exact .inl rfl
    · next hbinary =>
      rw [Bool.not_eq_true', Bool.not_eq_false] at hbinary
      split at heq
      · cases heq
        exact .inl rfl
      · next frame hdecode =>
        split at heq
        · cases heq
          exact .inl rfl
        · next htype =>
          split at heq
          · cases heq
            exact .inl rfl
          · next horder =>
            rw [not_or, not_not, not_le] at horder
            refine .inr ⟨frame, hbinary, hdecode, not_not.mp htype, horder.1, horder.2, ?_⟩
            dsimp only at heq
            split at heq
            · cases heq
              exact .inl rfl
            · split at heq
              · next error henqueue =>
                cases heq
                exact .inr (.inl ⟨thrown, henqueue, rfl⟩)
              · cases heq
  · next q heq =>
    split at heq
    · cases heq
    · next hbinary =>
      rw [Bool.not_eq_true', Bool.not_eq_false] at hbinary
      split at heq
      · cases heq
      · next frame hdecode =>
        split at heq
        · cases heq
        · next htype =>
          split at heq
          · cases heq
          · next horder =>
            rw [not_or, not_not, not_le] at horder
            refine .inr ⟨frame, hbinary, hdecode, not_not.mp htype, horder.1, horder.2, ?_⟩
            dsimp only at heq
            split at heq
            · cases heq
            · split at heq
              · cases heq
              · next r henqueue =>
                cases heq
                exact .inr (.inr ⟨r, henqueue, rfl⟩)

/-- A message of the FIPS worker takes a sequence, moves packets and may close the socket. -/
theorem handleFipsMessage_relayed (options : PortOptions) (socket : ℕ) (message : RawMessage)
    (now : ℕ) (p : Ports) :
    ∃ q r, (q = p ∨ ∃ sequence, q = takeFipsSequence socket sequence p) ∧ Relayed q r ∧
      (handleFipsMessage options socket message now p = r ∨
        handleFipsMessage options socket message now p = rejectSocket socket r) := by
  rcases handleFipsMessage_cases options socket message now p with
    heq | ⟨frame, -, -, htype, -, -, heq | ⟨thrown, henqueue, heq⟩ | ⟨q, henqueue, heq⟩⟩
  · exact ⟨p, p, .inl rfl, .refl p, .inr heq⟩
  · exact ⟨_, _, .inr ⟨frame.sequence, rfl⟩, .refl _, .inr heq⟩
  · have hrelayed := relayed_enqueuePacket options .fipsToBrowser now
      (takeFipsSequence socket frame.sequence p) htype
    rw [henqueue] at hrelayed
    exact ⟨_, thrown.ports, .inr ⟨frame.sequence, rfl⟩, hrelayed, .inr heq⟩
  · have hrelayed := relayed_enqueuePacket options .fipsToBrowser now
      (takeFipsSequence socket frame.sequence p) htype
    rw [henqueue] at hrelayed
    exact ⟨_, _, .inr ⟨frame.sequence, rfl⟩, hrelayed.trans (relayed_flushToBrowser options q),
      .inl heq⟩

/-- A message of the worker closes the socket of the worker at most, which is no browser. -/
theorem spares_handleFipsMessage (options : PortOptions) {socket : ℕ} {p : Ports}
    (hfips : (p.sockets socket).endpoint = .fips) (message : RawMessage) (now : ℕ) :
    Spares a p (handleFipsMessage options socket message now p) := by
  obtain ⟨q, r, hq, hrelayed, hresult⟩ := handleFipsMessage_relayed options socket message now p
  have htaken : Spares a p q ∧ (q.sockets socket).endpoint = .fips := by
    rcases hq with rfl | ⟨sequence, rfl⟩
    · exact ⟨.refl a q, hfips⟩
    · refine ⟨spares_modifySocket (fun _ => ⟨⟨rfl, rfl, id, rfl⟩, rfl⟩), ?_⟩
      unfold takeFipsSequence
      rw [sockets_modifySocket, if_pos rfl]
      exact hfips
  have hmoved := htaken.1.trans (spares_relayed hrelayed)
  rcases hresult with heq | heq
  · rw [heq]
    exact hmoved
  · obtain ⟨frames, -, hsaid⟩ := hrelayed.said socket
    rw [heq]
    exact hmoved.trans (spares_rejectSocket (.inl (by rw [hsaid]; exact htaken.2)))

/-- A proof that is taken arms the bridge and leaves every handler where it was. -/
theorem spares_acceptAcousticReady (socket : ℕ) (frame : FwavFrame) (now : ℕ) (p : Ports) :
    Spares a p (leftPorts (acceptAcousticReady socket frame now p)) := by
  unfold acceptAcousticReady
  split
  · exact .refl a p
  · split
    · exact .refl a p
    · dsimp only
      split
      · exact .refl a p
      · split
        · exact .refl a p
        · split
          · unfold armAcousticSession leftPorts
            dsimp only
            refine (spares_modifyConnection socket
              (fun c => { c with acousticCapabilityUsed := true }) p).trans
              (.trans ?_ (spares_notify true _))
            exact spares_of_sockets rfl rfl rfl (fun _ => ⟨⟨rfl, rfl, id, rfl⟩, rfl⟩)
          · exact .refl a p

/-- A DISARM leaves every handler where it was. -/
theorem spares_acceptAcousticDisarm (options : PortOptions) (socket : ℕ) (frame : FwavFrame)
    (p : Ports) : Spares a p (leftPorts (acceptAcousticDisarm options socket frame p)) := by
  unfold acceptAcousticDisarm
  split
  · exact .refl a p
  · split
    · exact .refl a p
    · exact (spares_disarm p).trans (spares_issue options socket _)

/-- A HELLO leaves every handler where it was. -/
theorem spares_acceptHello (options : PortOptions) (socket : ℕ) (frame : FwavFrame)
    (p : Ports) : Spares a p (leftPorts (acceptHello options socket frame p)) := by
  unfold acceptHello
  split
  · exact .refl a p
  · exact spares_issue options socket p

/-- Taking the bridge out of a state that needs a reset leaves every handler where it was. -/
theorem spares_recovers {f : Ports → Ports} (hf : Recovers a f) (p : Ports) :
    Spares a p (f p) := by
  rcases hf with ⟨-, rfl⟩ | ⟨socket, frame, -, -, rfl⟩
  · exact .refl a p
  · exact spares_modifyConnection socket _ p

/-- A reset puts none but its own handler into the middle of a reset. -/
theorem spares_resetPorts (p : Ports) : Spares a p (resetPorts a p) := by
  have hsocket : ∀ k, ((resetPorts a p).sockets k).endpoint = (p.sockets k).endpoint ∧
      ((resetPorts a p).sockets k).readyState = (p.sockets k).readyState ∧
      ((resetPorts a p).sockets k).attached = (p.sockets k).attached ∧
      ((resetPorts a p).sockets k).inbox = (p.sockets k).inbox :=
    fun k => ⟨view_resetPorts Socket.endpoint (fun _ _ _ _ => rfl) a p k,
      view_resetPorts Socket.readyState (fun _ _ _ _ => rfl) a p k,
      view_resetPorts Socket.attached (fun _ _ _ _ => rfl) a p k,
      view_resetPorts Socket.inbox (fun _ _ _ _ => rfl) a p k⟩
  refine ⟨le_rfl, fun k _ => (hsocket k).1, fun k _ h => (hsocket k).2.2.1 ▸ h, fun _ h => h,
    fun k _ _ hopen => .inl ?_, fun k _ ha => ?_, fun x _ h => List.mem_append_left _ h,
    fun hp k hk => hp k ?_⟩
  · unfold isOpen at hopen ⊢
    rwa [(hsocket k).2.1]
  · unfold resetPorts
    simp only [clearQueues, record, refreshState, clearPendingBrowserAdmission, ha, renewSocket,
      Bool.false_eq_true, if_false]
    split <;> rfl
  · rwa [(hsocket k).2.2.1, (hsocket k).2.2.2] at hk

/-- Every client learns of a new epoch, and no handler is disturbed. -/
theorem spares_announceReset (p : Ports) : Spares a p (announceReset a p) := by
  have hsocket : ∀ k, SameSocket (p.sockets k) ((announceReset a p).sockets k) ∧
      ((announceReset a p).sockets k).readyState = (p.sockets k).readyState := by
    intro k
    unfold announceReset
    dsimp only
    split <;> exact ⟨⟨rfl, rfl, id, rfl⟩, rfl⟩
  refine ⟨le_rfl, fun k _ => (hsocket k).1.1, fun k _ => (hsocket k).1.2.2.1, fun _ h => h,
    fun k _ _ hopen => .inl ?_, fun k _ _ => (hsocket k).1.2.1,
    fun x hx h => (List.mem_erase_of_ne hx).mpr h, ?_⟩
  · unfold isOpen at hopen ⊢
    rwa [(hsocket k).2]
  · intro hp k hk
    refine hp k (hk.imp (hsocket k).1.2.2.1 ?_)
    rw [(hsocket k).1.2.2.2]
    exact id

end Spares

/-- Moves spare what the other actors rely on: sockets keep their endpoints, refusals stay on
record, and the work of a handler is its own. -/
theorem PortMove.spares {options : PortOptions} {a : Actor} {p q : Ports}
    (h : PortMove options a p q) : Spares a p q := by
  cases h with
  | greets ha => exact spares_connectBrowser options p
  | joins ha => exact spares_connectFips options p
  | @receives socket message ha hattached =>
    exact spares_modifyOne (fun _ => ⟨rfl, rfl, rfl⟩) (fun _ _ => rfl) (fun _ => .inl hattached)
  | notes hf => exact spares_modifyConnection _ _ p
  | rejects socket h => exact spares_rejectSocket (.inr h)
  | leavesFips ha => exact spares_closeFips _ p
  | leaves ha => exact spares_closeBrowser _ p
  | retries ha htimer => exact spares_relayed (relayed_retry options _ p)
  | submits now ha hendpoint => exact spares_handleFipsMessage options hendpoint _ now
  | answers now h htype => exact spares_relayed (relayed_acceptBrowserAdmission options _ _ now p)
  | readies now h htype => exact spares_acceptAcousticReady _ _ now p
  | disarms h htype => exact spares_acceptAcousticDisarm options _ _ p
  | hails h htype => exact spares_acceptHello options _ _ p
  | takes h horder =>
    obtain ⟨rawData, ha, -⟩ := h.message
    exact spares_modifyHandled ha (fun _ => ⟨rfl, rfl, rfl, rfl⟩)
  | @forwards q _ frame now hcarries htype hunderway h =>
    have hrelayed := relayed_acceptBrowserPacket options now p htype
    rw [h] at hrelayed
    obtain ⟨rawData, ha, -⟩ := hcarries
    exact (spares_relayed hrelayed).trans (spares_modifyHandled ha (fun _ => ⟨rfl, rfl, rfl, rfl⟩))
  | @forwardFails thrown frame now htype h =>
    have hrelayed := relayed_acceptBrowserPacket options now p htype
    rw [h] at hrelayed
    exact spares_relayed hrelayed
  | errs h htype => exact (spares_disarm p).trans (spares_issue options _ _)
  | exhausts hf hepoch => exact spares_recovers hf p
  | resets hf hepoch =>
    exact ((spares_recovers hf p).trans (spares_disarm _)).trans (spares_resetPorts _)
  | endsReset h =>
    exact ⟨le_rfl, fun _ _ => rfl, fun _ _ h => h, fun _ h => h, fun _ _ _ h => .inl h,
      fun _ _ _ => rfl, fun x hx h => (List.mem_erase_of_ne hx).mpr h, id⟩
  | announces h => exact spares_announceReset p
  | restarts hcarries =>
    obtain ⟨rawData, ha, -⟩ := hcarries
    exact spares_modifyHandled ha (fun _ => ⟨rfl, rfl, rfl, rfl⟩)
  | flushes => exact spares_relayed (relayed_flushToBrowser options p)
  | enqueues frame now => exact spares_relayed (relayed_enqueue frame now p)
  | tells socket h => exact spares_send socket _ p
  | broadcasts h => exact spares_broadcast _ p
  | refuses ha h =>
    exact spares_of_same rfl (fun _ h => List.mem_append_left _ h) rfl
      (fun _ => ⟨rfl, rfl, id, rfl⟩) (fun _ _ => .inl rfl)

/-- A message of the qualification that has an effect on the browser. -/
def isEffect : Outbound → Bool
  | .playback _ => true
  | .qualificationResult _ _ => true
  | .cyrinxResult _ _ _ _ => true
  | _ => false

/-- Such messages among those sent on a socket. -/
def effects (k : Socket) : List Outbound := k.sent.filter isEffect

/-- No such message is sent. -/
def Discreet (p q : Ports) : Prop := ∀ k, effects (q.sockets k) = effects (p.sockets k)

section Discreet

variable {p q r : Ports}

theorem Discreet.refl (p : Ports) : Discreet p p := fun _ => rfl

theorem Discreet.trans (hpq : Discreet p q) (hqr : Discreet q r) : Discreet p r :=
  fun k => (hqr k).trans (hpq k)

/-- A change of one socket is discreet if its effect messages stay the same. -/
theorem discreet_modifySocket {socket : ℕ} {f : Socket → Socket}
    (hf : ∀ k, effects (f k) = effects k) : Discreet p (modifySocket socket f p) :=
  view_modifySocket effects hf socket p

/-- A message that is no effect may be sent. -/
theorem discreet_send (socket : ℕ) {message : Outbound} (h : isEffect message = false)
    (p : Ports) : Discreet p (send socket message p) :=
  discreet_modifySocket (fun k => by simp [effects, h])

/-- A message that is no effect may be sent to all. -/
theorem discreet_broadcast {message : Outbound} (h : isEffect message = false) (p : Ports) :
    Discreet p (broadcast message p) :=
  view_broadcast effects (fun s => by simp [effects, h]) p

/-- Relaying packets sends no effect. -/
theorem discreet_relayed (h : Relayed p q) : Discreet p q := by
  intro k
  obtain ⟨frames, -, hk⟩ := h.said k
  have hframes : (frames.map Outbound.frame).filter isEffect = [] := by
    simp [List.filter_eq_nil_iff, isEffect]
  rw [hk]
  simp only [effects, List.filter_append, hframes, List.append_nil]

/-- The worker is told whether a browser is armed by a frame, which is no effect. -/
theorem discreet_notify (armed : Bool) (p : Ports) :
    Discreet p (notifyFipsBrowserState armed p) := by
  unfold notifyFipsBrowserState
  split
  · exact discreet_send _ rfl p
  · exact .refl p

/-- Disarming sends frames alone. -/
theorem discreet_disarm (p : Ports) : Discreet p (disarmAcousticSession p) := by
  unfold disarmAcousticSession
  split
  · exact .refl p
  · have hforgets : ∀ q : Ports, Discreet q { q with acousticReadinessProof := none } :=
      fun q _ => rfl
    have hnotified : Discreet p (notifyFipsBrowserState false
      { p with acousticReady := false, armedBy := none }) := discreet_notify false _
    exact (hnotified.trans (hforgets _)).trans (discreet_relayed (relayed_clearQueues _))

/-- A capability is issued by a frame. -/
theorem discreet_issue (options : PortOptions) (socket : ℕ) (p : Ports) :
    Discreet p (issueAcousticCapability options socket p) := by
  have hchanged : Discreet p (modifyConnection socket (fun c => { c with
      acousticCapability := options.randomBytes p.issueCount
      acousticCapabilityUsed := false
      issue := some p.issueCount }) { p with issueCount := p.issueCount + 1 }) :=
    discreet_modifySocket (fun _ => rfl)
  unfold issueAcousticCapability
  dsimp only
  split
  · exact hchanged.trans (discreet_send _ rfl _)
  · exact hchanged

/-- A socket that is rejected is closed without a word. -/
theorem discreet_rejectSocket (socket : ℕ) (p : Ports) : Discreet p (rejectSocket socket p) :=
  discreet_modifySocket (fun _ => rfl)

/-- The close of a worker sends frames alone. -/
theorem discreet_closeFips (socket : ℕ) (p : Ports) : Discreet p (closeFips socket p) := by
  have hdetached : Discreet p (detach socket p) := discreet_modifySocket (fun _ => rfl)
  unfold closeFips
  dsimp only
  split
  · exact hdetached
  · exact hdetached

/-- The close of a browser sends frames alone. -/
theorem discreet_closeBrowser (socket : ℕ) (p : Ports) :
    Discreet p (closeBrowser socket p).2 := by
  have hdetached : Discreet p (detach socket p) := discreet_modifySocket (fun _ => rfl)
  have hreleased : Discreet p (releaseOwner (detach socket p)) :=
    (hdetached.trans (discreet_relayed (relayed_clearPending _))).trans (discreet_disarm _)
  unfold closeBrowser
  dsimp only
  split
  · exact hdetached
  · split
    · exact hreleased
    · split
      · exact hreleased
      · exact hreleased

/-- A message of the worker is passed on as frames or closes the worker. -/
theorem discreet_handleFipsMessage (options : PortOptions) (socket : ℕ) (message : RawMessage)
    (now : ℕ) (p : Ports) : Discreet p (handleFipsMessage options socket message now p) := by
  obtain ⟨q, r, hq, hrelayed, hresult⟩ := handleFipsMessage_relayed options socket message now p
  have htaken : Discreet p q := by
    rcases hq with rfl | ⟨sequence, rfl⟩
    · exact .refl q
    · exact discreet_modifySocket (fun _ => rfl)
  rcases hresult with heq | heq
  · rw [heq]
    exact htaken.trans (discreet_relayed hrelayed)
  · rw [heq]
    exact (htaken.trans (discreet_relayed hrelayed)).trans (discreet_rejectSocket socket r)

/-- A proof that is taken is answered by frames alone. -/
theorem discreet_acceptAcousticReady (socket : ℕ) (frame : FwavFrame) (now : ℕ) (p : Ports) :
    Discreet p (leftPorts (acceptAcousticReady socket frame now p)) := by
  unfold acceptAcousticReady
  split
  · exact .refl p
  · split
    · exact .refl p
    · dsimp only
      split
      · exact .refl p
      · split
        · exact .refl p
        · split
          · have hspent : Discreet p (modifyConnection socket
                (fun c => { c with acousticCapabilityUsed := true }) p) :=
              discreet_modifySocket (fun _ => rfl)
            exact hspent.trans (discreet_notify true _)
          · exact .refl p

/-- A DISARM is answered by frames alone. -/
theorem discreet_acceptAcousticDisarm (options : PortOptions) (socket : ℕ) (frame : FwavFrame)
    (p : Ports) : Discreet p (leftPorts (acceptAcousticDisarm options socket frame p)) := by
  unfold acceptAcousticDisarm
  split
  · exact .refl p
  · split
    · exact .refl p
    · exact (discreet_disarm p).trans (discreet_issue options socket _)

/-- A HELLO is answered by frames alone. -/
theorem discreet_acceptHello (options : PortOptions) (socket : ℕ) (frame : FwavFrame)
    (p : Ports) : Discreet p (leftPorts (acceptHello options socket frame p)) := by
  unfold acceptHello
  split
  · exact .refl p
  · exact discreet_issue options socket p

/-- Taking the bridge out of a state that needs a reset sends frames alone. -/
theorem discreet_recovers {a : Actor} {f : Ports → Ports} (hf : Recovers a f) (p : Ports) :
    Discreet p (f p) := by
  rcases hf with ⟨-, rfl⟩ | ⟨socket, frame, -, -, rfl⟩
  · exact .refl p
  · exact discreet_modifySocket (fun _ => rfl)

/-- A reset sends nothing before its report is written. -/
theorem discreet_resetPorts (a : Actor) (p : Ports) : Discreet p (resetPorts a p) :=
  view_resetPorts effects (fun _ _ _ _ => rfl) a p

/-- The new epoch is announced by frames. -/
theorem discreet_announceReset (a : Actor) (p : Ports) : Discreet p (announceReset a p) :=
  view_announceReset effects (fun s flags => by simp [effects, isEffect]) a

end Discreet

/-- No such message is sent, but a socket that comes in begins with none. -/
def Reticent (p q : Ports) : Prop :=
  ∀ k, effects (q.sockets k) = effects (p.sockets k) ∨ effects (q.sockets k) = []

/-- Who says nothing is reticent. -/
theorem Discreet.reticent {p q : Ports} (h : Discreet p q) : Reticent p q := fun k => .inl (h k)

theorem Reticent.trans {p q r : Ports} (hpq : Reticent p q) (hqr : Discreet q r) :
    Reticent p r := by
  intro k
  rw [hqr k]
  exact hpq k

/-- A new socket takes a place whose former messages are forgotten. -/
theorem reticent_admit {p q : Ports} {index : ℕ} {socket : Socket}
    (hsockets : q.sockets = Function.update p.sockets index socket)
    (hempty : effects socket = effects (p.sockets index) ∨ effects socket = []) :
    Reticent p q := by
  intro k
  rw [hsockets]
  by_cases heq : k = index
  · rw [heq, Function.update_self]
    exact hempty
  · rw [Function.update_of_ne heq]
    exact .inl rfl

/-- A browser that comes in has been told nothing of an effect. -/
theorem reticent_connectBrowser (options : PortOptions) (p : Ports) :
    Reticent p (connectBrowser options p) := by
  have hadmitted : Reticent p (admitBrowser p) := reticent_admit rfl (.inr rfl)
  unfold connectBrowser
  split
  · exact reticent_admit rfl (.inl rfl)
  · split
    · exact hadmitted.trans (discreet_relayed (relayed_flushToBrowser options _))
    · exact hadmitted

/-- A worker that comes in has been told nothing of an effect. -/
theorem reticent_connectFips (options : PortOptions) (p : Ports) :
    Reticent p (connectFips options p) := by
  have hadmitted : Reticent p (admitFips p) := reticent_admit rfl (.inr rfl)
  unfold connectFips
  split
  · exact reticent_admit rfl (.inl rfl)
  · dsimp only
    have hflushed := hadmitted.trans (discreet_relayed (relayed_flushToFips options _))
    split
    · exact hflushed.trans (discreet_notify true _)
    · exact hflushed

/-- Moves on the ports send no message that has an effect, and only a connection touches what a
socket has been sent. -/
theorem PortMove.discreet_or {options : PortOptions} {a : Actor} {p q : Ports}
    (h : PortMove options a p q) :
    Discreet p q ∨ Reticent p q ∧ (a = .greeting p.socketCount ∨ a = .environment) := by
  cases h with
  | greets ha => exact .inr ⟨reticent_connectBrowser options p, .inl ha⟩
  | joins ha => exact .inr ⟨reticent_connectFips options p, .inr ha⟩
  | receives ha hattached => exact .inl (discreet_modifySocket (fun _ => rfl))
  | notes hf => exact .inl (discreet_modifySocket (fun _ => rfl))
  | rejects socket ha => exact .inl (discreet_rejectSocket socket p)
  | leavesFips ha => exact .inl (discreet_closeFips _ p)
  | leaves ha => exact .inl (discreet_closeBrowser _ p)
  | retries ha htimer => exact .inl (discreet_relayed (relayed_retry options _ p))
  | submits now ha => exact .inl (discreet_handleFipsMessage options _ _ now p)
  | answers now h htype =>
    exact .inl (discreet_relayed (relayed_acceptBrowserAdmission options _ _ now p))
  | readies now h htype => exact .inl (discreet_acceptAcousticReady _ _ now p)
  | disarms h htype => exact .inl (discreet_acceptAcousticDisarm options _ _ p)
  | hails h htype => exact .inl (discreet_acceptHello options _ _ p)
  | takes h horder => exact .inl (discreet_modifySocket (fun _ => rfl))
  | @forwards q _ frame now hcarries htype hunderway h =>
    have hrelayed := relayed_acceptBrowserPacket options now p htype
    rw [h] at hrelayed
    exact .inl ((discreet_relayed hrelayed).trans (discreet_modifySocket (fun _ => rfl)))
  | @forwardFails thrown frame now htype h =>
    have hrelayed := relayed_acceptBrowserPacket options now p htype
    rw [h] at hrelayed
    exact .inl (discreet_relayed hrelayed)
  | errs h htype => exact .inl ((discreet_disarm p).trans (discreet_issue options _ _))
  | exhausts hf hepoch => exact .inl (discreet_recovers hf p)
  | resets hf hepoch =>
    exact .inl (((discreet_recovers hf p).trans (discreet_disarm _)).trans
      (discreet_resetPorts _ _))
  | endsReset h => exact .inl (.refl p)
  | announces h => exact .inl (discreet_announceReset _ p)
  | restarts => exact .inl (discreet_modifySocket (fun _ => rfl))
  | flushes => exact .inl (discreet_relayed (relayed_flushToBrowser options p))
  | enqueues frame now => exact .inl (discreet_relayed (relayed_enqueue frame now p))
  | @tells socket message h =>
    refine .inl (discreet_send socket ?_ p)
    cases message <;> first | rfl | cases h
  | @broadcasts message h =>
    refine .inl (discreet_broadcast ?_ p)
    cases message <;> first | rfl | cases h
  | refuses ha h => exact .inl (.refl p)

end Fipwave.PortMoves
