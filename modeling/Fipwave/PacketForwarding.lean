import Fipwave.BrowserReadiness

/-!
# Packets to the worker are forwarded once

A packet of a browser is forwarded to the worker if its sequence is above the
last one its connection took. The last sequence is kept for each connection,
so an epoch that is shared by connections can see a packet twice. It does not
as long as packets are handled for the owner of the browser endpoint only and
nobody is let into an epoch with packets before a reset.
-/

namespace Fipwave.PacketForwarding

open ByteWords FwavProtocol QualificationSession BridgePorts BridgeMethods BridgeServer PortMoves
  BridgeMoves ReadinessMoves BrowserReadiness TransitionRun

/-- Nothing is forwarded, and an empty queue to the worker stays empty. -/
structure Unmoved (p q : Ports) : Prop where
  /-- The history is the same. -/
  forwarded : q.forwarded = p.forwarded
  /-- Nothing is queued. -/
  idle : p.browserToFips.frames = [] → q.browserToFips.frames = []

section Unmoved

variable {p q r : Ports} (options : PortOptions)

theorem Unmoved.refl (p : Ports) : Unmoved p p := ⟨rfl, id⟩

theorem Unmoved.trans (hpq : Unmoved p q) (hqr : Unmoved q r) : Unmoved p r :=
  ⟨hqr.forwarded.trans hpq.forwarded, hqr.idle ∘ hpq.idle⟩

/-- A guarded send is no packet of the queue to the worker. -/
theorem unmoved_trySend (socket : ℕ) (message : Outbound) (p : Ports) :
    Unmoved p (trySend options socket message p).2 := by
  unfold trySend
  dsimp only
  split <;> exact ⟨rfl, id⟩

/-- A packet that is offered to the browser goes the other way. -/
theorem unmoved_flushToBrowser (p : Ports) : Unmoved p (flushToBrowser options p) := by
  unfold flushToBrowser
  split
  · exact .refl p
  · next owner _ =>
    split
    · exact .refl p
    · split
      · exact .refl p
      · split
        · exact ⟨rfl, id⟩
        · next entry rest _ =>
          have hsent := unmoved_trySend options owner (.frame entry.frame) p
          rcases hr : trySend options owner (.frame entry.frame) p with ⟨thrown, q⟩
          rw [hr] at hsent
          cases thrown with
          | true => exact hsent.trans ⟨rfl, id⟩
          | false => exact hsent.trans ⟨rfl, id⟩

/-- A packet that is offered again goes the other way. -/
theorem unmoved_retry (timer : ℕ) (p : Ports) :
    Unmoved p (retryBrowserAdmission options timer p) := by
  unfold retryBrowserAdmission
  dsimp only
  split
  · exact ⟨rfl, id⟩
  · next pending _ =>
    split
    · exact ⟨rfl, id⟩
    · split
      · exact ⟨rfl, id⟩
      · have hcleared : Unmoved p { p with
            retryTimers := p.retryTimers.erase timer
            pendingBrowserAdmission := some { pending with retryTimer := none } } := ⟨rfl, id⟩
        have hsent := hcleared.trans
          (unmoved_trySend options pending.owner (.frame pending.entry.frame) _)
        rcases hr : trySend options pending.owner (.frame pending.entry.frame) { p with
          retryTimers := p.retryTimers.erase timer
          pendingBrowserAdmission := some { pending with retryTimer := none } } with ⟨thrown, q⟩
        rw [hr] at hsent
        cases thrown with
        | true => exact hsent.trans ⟨rfl, id⟩
        | false => exact hsent.trans ⟨rfl, id⟩

/-- The answer to a packet of the worker is no packet. -/
theorem unmoved_notifyAdmission (packet : FwavFrame) (result : FipsPacketAdmission) (p : Ports) :
    Unmoved p (notifyFipsPacketAdmission options packet result p) := by
  unfold notifyFipsPacketAdmission
  split
  · exact .refl p
  · exact unmoved_trySend options _ _ p

/-- What the browser has accepted is counted on its own side. -/
theorem unmoved_admissionAccepted (pending : PendingBrowserAdmission) (p : Ports) :
    Unmoved p (admissionAccepted options pending p) := by
  unfold admissionAccepted
  split
  · have hcleared : Unmoved p (refreshState (clearPendingBrowserAdmission p)) := ⟨rfl, id⟩
    exact hcleared.trans (unmoved_flushToBrowser options _)
  · dsimp only
    have hcounted : Unmoved p { shiftToBrowser .accepted pending.entry p with
        fipsToBrowserCounter :=
          (shiftToBrowser .accepted pending.entry p).fipsToBrowserCounter + 1 } := ⟨rfl, id⟩
    have hnoticed := hcounted.trans
      (unmoved_notifyAdmission options pending.entry.frame .accepted _)
    have hpublished := hnoticed.trans (r := refreshState _) ⟨rfl, id⟩
    exact hpublished.trans (unmoved_flushToBrowser options _)

/-- Whatever a browser answers, nothing is forwarded to the worker for it. -/
theorem unmoved_acceptBrowserAdmission (socket : ℕ) (frame : FwavFrame) (now : ℕ) (p : Ports) :
    Unmoved p (leftPorts (acceptBrowserAdmission options socket frame now p)) := by
  unfold acceptBrowserAdmission
  split
  · exact .refl p
  · next pending _ =>
    split
    · exact .refl p
    · split
      · exact .refl p
      · split
        · exact .refl p
        · split
          · exact .refl p
          · exact unmoved_admissionAccepted options pending p
          · unfold admissionQueueFull
            dsimp only
            have hnoticed : Unmoved p (if pending.attempts = 1 then
                notifyFipsPacketAdmission options pending.entry.frame .queueFull p else p) := by
              split
              · exact unmoved_notifyAdmission options _ _ p
              · exact .refl p
            generalize (if pending.attempts = 1 then
              notifyFipsPacketAdmission options pending.entry.frame .queueFull p else p) = q
              at hnoticed
            split
            · split
              · exact hnoticed
              · have hexpired : Unmoved q (refreshState (shiftToBrowser .expired pending.entry q)) :=
                  ⟨rfl, id⟩
                exact (hnoticed.trans hexpired).trans (unmoved_flushToBrowser options _)
            · exact hnoticed.trans ⟨rfl, id⟩

/-- Packets that are too old leave the queue to the browser alone. -/
theorem unmoved_expireToBrowser (now : ℕ) (p : Ports) :
    Unmoved p (expireToBrowser options now p) := by
  unfold expireToBrowser
  dsimp only
  split <;> exact ⟨rfl, id⟩

/-- A packet of the worker goes to the browser, and nothing comes back to the worker. -/
theorem unmoved_handleFipsMessage (socket : ℕ) (message : RawMessage) (now : ℕ) (p : Ports) :
    Unmoved p (handleFipsMessage options socket message now p) := by
  have htaken : ∀ sequence, Unmoved p (takeFipsSequence socket sequence p) := fun _ => ⟨rfl, id⟩
  have hqueued : ∀ frame q, Unmoved q
      (leftPorts (enqueuePacket options .fipsToBrowser frame now q)) := by
    intro frame q
    have hexpired := unmoved_expireToBrowser options now q
    unfold enqueuePacket
    dsimp only
    split
    · exact hexpired
    · exact hexpired.trans ⟨rfl, id⟩
  rcases handleFipsMessage_cases options socket message now p with
    heq | ⟨frame, -, -, -, -, -, heq | ⟨thrown, henqueue, heq⟩ | ⟨q, henqueue, heq⟩⟩
  · rw [heq]
    exact ⟨rfl, id⟩
  · rw [heq]
    exact ⟨rfl, id⟩
  · have h := (htaken frame.sequence).trans (hqueued frame _)
    rw [henqueue] at h
    rw [heq]
    exact h.trans ⟨rfl, id⟩
  · have h := (htaken frame.sequence).trans (hqueued frame _)
    rw [henqueue] at h
    rw [heq]
    exact h.trans (unmoved_flushToBrowser options q)

/-- Control frames have a queue of their own. -/
theorem unmoved_enqueue (frame : FwavFrame) (now : ℕ) (p : Ports) :
    Unmoved p (leftPorts (enqueue frame now p)) := by
  unfold enqueue
  split
  · exact .refl p
  · dsimp only
    split <;> exact ⟨rfl, id⟩

/-- Entries that are too old leave an empty queue empty. -/
theorem unmoved_expireToFips (now : ℕ) (p : Ports) : Unmoved p (expireToFips options now p) := by
  refine ⟨rfl, fun hidle => ?_⟩
  simp [expireToFips, dropStale, hidle]

/-- A packet that is not queued is not forwarded. -/
theorem unmoved_acceptBrowserPacket {frame : FwavFrame} {now : ℕ} {thrown : Thrown}
    (h : acceptBrowserPacket options frame now p = .error thrown) : Unmoved p thrown.ports := by
  unfold acceptBrowserPacket at h
  split at h
  · cases h
    exact .refl p
  · split at h
    · next error henqueue =>
      cases h
      unfold enqueuePacket at henqueue
      dsimp only at henqueue
      split at henqueue
      · cases henqueue
        exact unmoved_expireToFips options now p
      · cases henqueue
    · cases h

/-- A worker that comes to an empty queue gets nothing. -/
theorem unmoved_flushToFips (hidle : p.browserToFips.frames = []) :
    Unmoved p (flushToFips options p) := by
  unfold flushToFips
  split
  · exact .refl p
  · rw [hidle]
    exact ⟨rfl, id⟩

end Unmoved

/-- A packet that is accepted while nothing is queued leaves the queue at once; it is forwarded or
lost. -/
theorem acceptBrowserPacket_ok {options : PortOptions} {frame : FwavFrame} {now : ℕ} {p q : Ports}
    (h : acceptBrowserPacket options frame now p = .ok q) (hidle : p.browserToFips.frames = []) :
    q.browserToFips.frames = [] ∧
      (q.forwarded = p.forwarded ∨
        q.forwarded = p.forwarded ++ [(frame.epoch, frame.sequence)]) := by
  have hexpired := (unmoved_expireToFips options now p).idle hidle
  unfold acceptBrowserPacket at h
  split at h
  · cases h
  · next hready =>
    rw [Bool.not_eq_true', Bool.not_eq_false] at hready
    obtain ⟨worker, hworker⟩ := Option.isSome_iff_exists.mp hready
    split at h
    · cases h
    · next r henqueue =>
      cases h
      unfold enqueuePacket at henqueue
      dsimp only at henqueue
      split at henqueue
      · cases henqueue
      · cases henqueue
        have howner : openOwner p.fipsOwner p = some worker := hworker
        simp only [flushPacketQueue, flushToFips, refreshState, push, hexpired, List.nil_append]
        have hsame : openOwner (expireToFips options now p).fipsOwner
            (refreshState { expireToFips options now p with
              browserToFips := ⟨[⟨(expireToFips options now p).entryCount, frame, now⟩],
                (expireToFips options now p).browserToFips.bytes + frameBytes frame⟩
              entryCount := (expireToFips options now p).entryCount + 1 }) = some worker := howner
        unfold refreshState at hsame
        rw [hsame]
        simp only [forwardPackets, shift, trySend]
        split
        · next hthrows =>
          split at hthrows
          · cases hthrows
            exact ⟨rfl, .inl rfl⟩
          · cases hthrows
        · next hsent =>
          split at hsent
          · cases hsent
          · cases hsent
            exact ⟨rfl, .inr rfl⟩

/-- What the stream of packets rests on, of a socket. -/
structure Stream where
  /-- Endpoint it serves. -/
  endpoint : Endpoint
  /-- Its close was not handled yet. -/
  attached : Bool
  /-- Last sequence taken. -/
  lastSequence : ℤ
  /-- It has to reset first. -/
  mustResetBeforeUse : Bool
  /-- What its handler is in the middle of. -/
  underway : Underway

/-- What the stream of packets rests on, of a socket. -/
def streamOf (k : Socket) : Stream :=
  ⟨k.endpoint, k.attached, k.lastSequence, k.connection.mustResetBeforeUse, k.underway⟩

/-- Nothing is forwarded, and what the stream of the owner rests on is left alone. -/
structure Undisturbed (p q : Ports) : Prop where
  /-- Nothing is forwarded. -/
  unmoved : Unmoved p q
  /-- The epoch is the same. -/
  epoch : q.epoch = p.epoch
  /-- The same browser owns its endpoint. -/
  owner : q.owner = p.owner
  /-- The next browser is admitted on the same condition. -/
  admission : admittedGated q = admittedGated p
  /-- The stream of the owner is the same. -/
  streams : ∀ k, p.owner = some k → streamOf (q.sockets k) = streamOf (p.sockets k)

section Undisturbed

variable {p q r : Ports} (options : PortOptions)

theorem Undisturbed.refl (p : Ports) : Undisturbed p p := ⟨.refl p, rfl, rfl, rfl, fun _ _ => rfl⟩

theorem Undisturbed.trans (hpq : Undisturbed p q) (hqr : Undisturbed q r) : Undisturbed p r :=
  ⟨hpq.unmoved.trans hqr.unmoved, hqr.epoch.trans hpq.epoch, hqr.owner.trans hpq.owner,
    hqr.admission.trans hpq.admission,
    fun k hk => (hqr.streams k (hpq.owner ▸ hk)).trans (hpq.streams k hk)⟩

/-- Relaying packets leaves the sequences of the sockets where they are. -/
theorem undisturbed_relayed (h : Relayed p q) (hunmoved : Unmoved p q) : Undisturbed p q := by
  refine ⟨hunmoved, h.epoch, h.owner, ?_, fun k _ => ?_⟩
  · simp only [admittedGated, h.epochClaimed, h.reconnectAllowed, h.reconnectRequiresReset]
  · obtain ⟨frames, -, hk⟩ := h.said k
    rw [hk]
    rfl

/-- A change of one socket that leaves its stream alone. -/
theorem undisturbed_modifySocket {socket : ℕ} {f : Socket → Socket}
    (hf : ∀ k, streamOf (f k) = streamOf k) : Undisturbed p (modifySocket socket f p) := by
  exact ⟨⟨rfl, id⟩, rfl, rfl, rfl, fun k _ => view_modifySocket streamOf hf socket p k⟩

/-- A change of another socket than that of the owner. -/
theorem undisturbed_other {socket : ℕ} (hother : p.owner ≠ some socket) (hunmoved : Unmoved p q)
    (hepoch : q.epoch = p.epoch) (howner : q.owner = p.owner)
    (hadmission : admittedGated q = admittedGated p)
    (hsockets : ∀ k ≠ socket, q.sockets k = p.sockets k) : Undisturbed p q := by
  refine ⟨hunmoved, hepoch, howner, hadmission, fun k hk => ?_⟩
  rw [hsockets k]
  rintro rfl
  exact hother hk

/-- What a socket is sent takes none of its own sequences. -/
theorem undisturbed_send (socket : ℕ) (message : Outbound) (p : Ports) :
    Undisturbed p (send socket message p) := undisturbed_modifySocket (fun _ => rfl)

/-- What every socket is sent takes no sequence either. -/
theorem undisturbed_broadcast (message : Outbound) (p : Ports) :
    Undisturbed p (broadcast message p) := by
  exact ⟨⟨rfl, id⟩, rfl, rfl, rfl, fun k _ => view_broadcast streamOf (fun _ => rfl) p k⟩

/-- The worker is told whether a browser is armed, past the stream of packets. -/
theorem undisturbed_notify (armed : Bool) (p : Ports) :
    Undisturbed p (notifyFipsBrowserState armed p) := by
  unfold notifyFipsBrowserState
  split
  · exact undisturbed_send _ _ p
  · exact .refl p

/-- Disarming drops packets and forwards none. -/
theorem undisturbed_disarm (p : Ports) : Undisturbed p (disarmAcousticSession p) := by
  unfold disarmAcousticSession
  split
  · exact .refl p
  · have hcleared : ∀ q : Ports, Undisturbed q (clearQueues q) := fun q =>
      ⟨⟨rfl, fun _ => rfl⟩, rfl, rfl, rfl, fun _ _ => rfl⟩
    have hidle : Undisturbed p { p with acousticReady := false, armedBy := none } :=
      ⟨⟨rfl, id⟩, rfl, rfl, rfl, fun _ _ => rfl⟩
    have hforgets : ∀ q : Ports, Undisturbed q { q with acousticReadinessProof := none } :=
      fun q => ⟨⟨rfl, id⟩, rfl, rfl, rfl, fun _ _ => rfl⟩
    have hnoticed := hidle.trans (undisturbed_notify false _)
    exact (hnoticed.trans (hforgets _)).trans (hcleared _)

/-- A capability is issued past the stream of packets. -/
theorem undisturbed_issue (socket : ℕ) (p : Ports) :
    Undisturbed p (issueAcousticCapability options socket p) := by
  have hcounted : Undisturbed p { p with issueCount := p.issueCount + 1 } :=
    ⟨⟨rfl, id⟩, rfl, rfl, rfl, fun _ _ => rfl⟩
  have hissued : Undisturbed p (modifyConnection socket (fun c => { c with
      acousticCapability := options.randomBytes p.issueCount
      acousticCapabilityUsed := false
      issue := some p.issueCount }) { p with issueCount := p.issueCount + 1 }) :=
    hcounted.trans (undisturbed_modifySocket (fun _ => rfl))
  unfold issueAcousticCapability
  dsimp only
  split
  · exact hissued.trans (undisturbed_send socket _ _)
  · exact hissued

/-- Arming takes no sequence. -/
theorem undisturbed_arm (socket : ℕ) (payload : Bytes) (p : Ports) :
    Undisturbed p (armAcousticSession socket payload p) := by
  have hspent : Undisturbed p (modifyConnection socket
      (fun c => { c with acousticCapabilityUsed := true }) p) :=
    undisturbed_modifySocket (fun _ => rfl)
  have harmed : ∀ (q : Ports) (armings : List ℕ), Undisturbed q { q with
      acousticReadinessProof := some payload
      acousticReady := true
      armedBy := some socket
      armings } := fun q armings => ⟨⟨rfl, id⟩, rfl, rfl, rfl, fun _ _ => rfl⟩
  unfold armAcousticSession
  exact (hspent.trans (harmed _ _)).trans (undisturbed_notify true _)

/-- A socket that is rejected keeps the last sequence it took. -/
theorem undisturbed_rejectSocket (socket : ℕ) (p : Ports) :
    Undisturbed p (rejectSocket socket p) := undisturbed_modifySocket (fun _ => rfl)

/-- A worker connects while nothing is queued. -/
theorem undisturbed_connectFips (hidle : p.browserToFips.frames = [])
    (hother : p.owner ≠ some p.socketCount) : Undisturbed p (connectFips options p) := by
  unfold connectFips
  split
  · exact undisturbed_other hother ⟨rfl, id⟩ rfl rfl rfl (fun _ hk => Function.update_of_ne hk _ _)
  · have hadmitted : Undisturbed p (admitFips p) :=
      undisturbed_other hother ⟨rfl, id⟩ rfl rfl rfl (fun _ hk => Function.update_of_ne hk _ _)
    have hidle' : (admitFips p).browserToFips.frames = [] := hidle
    have hflushed := hadmitted.trans (undisturbed_relayed (relayed_flushToFips options _)
      (unmoved_flushToFips options hidle'))
    dsimp only
    split
    · exact hflushed.trans (undisturbed_notify true _)
    · exact hflushed

/-- A worker that is gone leaves the stream of the owner alone. -/
theorem undisturbed_closeFips {socket : ℕ} (hother : p.owner ≠ some socket) :
    Undisturbed p (closeFips socket p) := by
  have hdetached : Undisturbed p (detach socket p) :=
    undisturbed_other hother ⟨rfl, id⟩ rfl rfl rfl (fun _ hk => Function.update_of_ne hk _ _)
  unfold closeFips
  dsimp only
  split
  · exact hdetached.trans ⟨⟨rfl, id⟩, rfl, rfl, rfl, fun _ _ => rfl⟩
  · exact hdetached

/-- A message of another socket leaves the stream of the owner alone. -/
theorem undisturbed_handleFipsMessage {socket : ℕ} (hother : p.owner ≠ some socket)
    (message : RawMessage) (now : ℕ) :
    Undisturbed p (handleFipsMessage options socket message now p) := by
  have hunmoved := unmoved_handleFipsMessage options socket message now p
  obtain ⟨q, r, hq, hrelayed, hresult⟩ := handleFipsMessage_relayed options socket message now p
  have htaken : ∀ k, p.owner = some k → streamOf (q.sockets k) = streamOf (p.sockets k) := by
    intro k hk
    rcases hq with rfl | ⟨sequence, rfl⟩
    · rfl
    · have hne : k ≠ socket := by
        rintro rfl
        exact hother hk
      unfold takeFipsSequence
      rw [sockets_modifySocket, if_neg hne]
  have hlink : linkOf q = linkOf p := by
    rcases hq with rfl | ⟨sequence, rfl⟩ <;> rfl
  have hsaid : ∀ k, streamOf (r.sockets k) = streamOf (q.sockets k) := by
    intro k
    obtain ⟨frames, -, hk⟩ := hrelayed.said k
    rw [hk]
    rfl
  have hr : linkOf r = linkOf p := hrelayed.link.trans hlink
  have hgated : admittedGated r = admittedGated p := by
    have hclaimed := congrArg Link.epochClaimed hr
    have hallowed := congrArg Link.reconnectAllowed hr
    have hrequires := congrArg Link.reconnectRequiresReset hr
    simp only [linkOf] at hclaimed hallowed hrequires
    simp only [admittedGated, hclaimed, hallowed, hrequires]
  have hstreams : ∀ k, p.owner = some k → streamOf (r.sockets k) = streamOf (p.sockets k) :=
    fun k hk => (hsaid k).trans (htaken k hk)
  rcases hresult with heq | heq
  · rw [heq] at hunmoved ⊢
    exact ⟨hunmoved, congrArg Link.epoch hr, congrArg Link.owner hr, hgated, hstreams⟩
  · rw [heq] at hunmoved ⊢
    have hrejected := undisturbed_rejectSocket socket r
    refine ⟨hunmoved, congrArg Link.epoch hr, congrArg Link.owner hr, hgated, fun k hk => ?_⟩
    have hrk : r.owner = some k := (congrArg Link.owner hr).trans hk
    exact (hrejected.streams k hrk).trans (hstreams k hk)

/-- The announcement of a reset leaves the stream of the owner alone. -/
theorem undisturbed_announceReset (a : Actor) (p : Ports) :
    Undisturbed p (announceReset a p) := by
  exact ⟨⟨rfl, id⟩, rfl, rfl, rfl, fun k _ => view_announceReset streamOf (fun _ _ => rfl) a k⟩

end Undisturbed

/-- A move that concerns the stream of packets. -/
inductive StreamMove (options : PortOptions) (a : Actor) : Ports → Ports → Prop
  | greets {p : Ports} (ha : a = .greeting p.socketCount) :
      StreamMove options a p (connectBrowser options p)
  | leaves {p : Ports} {socket : ℕ} (ha : a = .closure socket) :
      StreamMove options a p (closeBrowser socket p).2
  | takes {p : Ports} {socket : ℕ} {frame : FwavFrame} (h : Takes a socket frame p)
      (horder : (p.sockets socket).lastSequence < frame.sequence) :
      StreamMove options a p (takeSequence socket frame p)
  | forwards {p q : Ports} {socket : ℕ} {frame : FwavFrame} {now : ℕ}
      (hcarries : Carries a socket frame) (htype : frame.type = .fipsPacket)
      (hunderway : (p.sockets socket).underway = .packet frame)
      (h : acceptBrowserPacket options frame now p = .ok q) :
      StreamMove options a p (endUnderway socket q)
  | exhausts {p : Ports} {f : Ports → Ports} (hf : Recovers a f) (hepoch : maxEpoch ≤ p.epoch) :
      StreamMove options a p (f p)
  | resets {p : Ports} {f : Ports → Ports} (hf : Recovers a f) :
      StreamMove options a p (resetPorts a (disarmAcousticSession (f p)))
  | restarts {p : Ports} {socket : ℕ} {frame : FwavFrame} (hcarries : Carries a socket frame)
      (htype : frame.type = .reset) (hunderway : (p.sockets socket).underway = .resetting) :
      StreamMove options a p (restartStream socket p)

/-- A move concerns the stream of packets, or leaves it alone while nothing is queued to the worker
and the owner is a browser that is there. -/
theorem undisturbed_or {options : PortOptions} {a : Actor} {p q : Ports}
    (h : PortMove options a p q) (hplaced : Placed p) (hidle : p.browserToFips.frames = [])
    (howner : ∀ k, p.owner = some k →
      (p.sockets k).attached = true ∧ (p.sockets k).endpoint = .browser) :
    Undisturbed p q ∨ StreamMove options a p q := by
  have hnext : p.owner ≠ some p.socketCount := by
    intro hk
    have := hplaced p.socketCount (.inl (howner _ hk).1)
    omega
  have hworker : ∀ {socket : ℕ}, (p.sockets socket).endpoint = .fips → p.owner ≠ some socket := by
    intro socket hfips hk
    have hbrowser := (howner socket hk).2
    rw [hfips] at hbrowser
    cases hbrowser
  cases h with
  | greets ha => exact .inr (.greets ha)
  | joins ha => exact .inl (undisturbed_connectFips options hidle hnext)
  | receives ha hattached => exact .inl (undisturbed_modifySocket (fun _ => rfl))
  | notes hf =>
    refine .inl (undisturbed_modifySocket (fun k => ?_))
    simp only [streamOf, (hf k.connection).1]
  | rejects socket ha => exact .inl (undisturbed_rejectSocket socket p)
  | leavesFips ha hattached hendpoint => exact .inl (undisturbed_closeFips (hworker hendpoint))
  | leaves ha hattached hendpoint => exact .inr (.leaves ha)
  | retries ha htimer =>
    exact .inl (undisturbed_relayed (relayed_retry options _ p) (unmoved_retry options _ p))
  | submits now ha hendpoint =>
    exact .inl (undisturbed_handleFipsMessage options (hworker hendpoint) _ now)
  | answers now h htype =>
    exact .inl (undisturbed_relayed (relayed_acceptBrowserAdmission options _ _ now p)
      (unmoved_acceptBrowserAdmission options _ _ now p))
  | readies now h htype =>
    rcases acceptAcousticReady_cases now h htype with heq | ⟨-, heq⟩
    · rw [heq]
      exact .inl (.refl p)
    · rw [heq]
      exact .inl (undisturbed_arm _ _ p)
  | disarms h htype =>
    unfold acceptAcousticDisarm
    split
    · exact .inl (.refl p)
    · split
      · exact .inl (.refl p)
      · exact .inl ((undisturbed_disarm p).trans (undisturbed_issue options _ _))
  | hails h htype =>
    unfold acceptHello
    split
    · exact .inl (.refl p)
    · exact .inl (undisturbed_issue options _ p)
  | takes h horder => exact .inr (.takes h horder)
  | forwards hcarries htype hunderway h => exact .inr (.forwards hcarries htype hunderway h)
  | @forwardFails thrown frame now htype h =>
    have hrelayed := relayed_acceptBrowserPacket options now p htype
    rw [h] at hrelayed
    exact .inl (undisturbed_relayed hrelayed (unmoved_acceptBrowserPacket options h))
  | errs h htype => exact .inl ((undisturbed_disarm p).trans (undisturbed_issue options _ _))
  | exhausts hf hepoch => exact .inr (.exhausts hf hepoch)
  | resets hf hepoch => exact .inr (.resets hf)
  | endsReset h => exact .inl ⟨⟨rfl, id⟩, rfl, rfl, rfl, fun _ _ => rfl⟩
  | announces h => exact .inl (undisturbed_announceReset _ p)
  | restarts hcarries htype hunderway => exact .inr (.restarts hcarries htype hunderway)
  | flushes =>
    exact .inl (undisturbed_relayed (relayed_flushToBrowser options p)
      (unmoved_flushToBrowser options p))
  | enqueues frame now =>
    exact .inl (undisturbed_relayed (relayed_enqueue frame now p) (unmoved_enqueue frame now p))
  | tells socket h => exact .inl (undisturbed_send socket _ p)
  | broadcasts h => exact .inl (undisturbed_broadcast _ p)
  | refuses ha h => exact .inl ⟨⟨rfl, id⟩, rfl, rfl, rfl, fun _ _ => rfl⟩

/-- Within an epoch the forwarded sequences increase, and the owner of the browser endpoint goes
on after them. -/
structure Sequenced (p : Ports) : Prop where
  /-- Nothing is queued to the worker. -/
  idle : p.browserToFips.frames = []
  /-- The sequences of an epoch increase. -/
  increasing : p.forwarded.Pairwise (fun x y => x.1 = y.1 → x.2 < y.2)
  /-- No packet is of an epoch to come. -/
  past : ∀ x ∈ p.forwarded, x.1 ≤ p.epoch
  /-- The owner is a browser whose close was not handled yet. -/
  owner : ∀ k, p.owner = some k →
    (p.sockets k).attached = true ∧ (p.sockets k).endpoint = .browser
  /-- It took the sequences of the current epoch, unless it has to reset first. -/
  tracked : ∀ k, p.owner = some k → (p.sockets k).connection.mustResetBeforeUse = false →
    ∀ x ∈ p.forwarded, x.1 = p.epoch → (x.2 : ℤ) ≤ (p.sockets k).lastSequence
  /-- A packet it is in the middle of comes after those of its epoch. -/
  packet : ∀ k frame, p.owner = some k → (p.sockets k).underway = .packet frame →
    frame.epoch ≤ p.epoch ∧
      (∀ x ∈ p.forwarded, x.1 = frame.epoch → x.2 < frame.sequence) ∧
      (frame.epoch = p.epoch → (frame.sequence : ℤ) ≤ (p.sockets k).lastSequence)
  /-- While its reset is under way nothing is forwarded in the new epoch. -/
  resetting : ∀ k, p.owner = some k → (p.sockets k).underway = .resetting →
    ∀ x ∈ p.forwarded, x.1 ≠ p.epoch

/-- The frame is a packet its connection may send, or one that was taken and is not forwarded
yet. -/
def takesPacket (socket : ℕ) (frame : FwavFrame) (p : Ports) : Bool :=
  let k := p.sockets socket
  frame.type = .fipsPacket && (k.underway = .packet frame ||
    frame.epoch = p.epoch && !k.connection.mustResetBeforeUse &&
      k.lastSequence < (frame.sequence : ℤ))

/-- What an actor may count on for the sequences to increase. -/
structure InTurn (a : Actor) (p : Ports) : Prop where
  /-- Packets are taken and forwarded for the owner only. -/
  packets : ∀ socket frame, Carries a socket frame → takesPacket socket frame p = true →
    p.owner = some socket
  /-- Nobody is admitted without a reset to an epoch with packets. -/
  greets : a = .greeting p.socketCount → browserAdmissible p = true → admittedGated p = false →
    ∀ x ∈ p.forwarded, x.1 ≠ p.epoch
  /-- In the last epoch, once it has packets, no RESET is taken that has to come first. -/
  lasts : ∀ socket frame, Carries a socket frame → frame.type = .reset → maxEpoch ≤ p.epoch →
    p.owner = some socket → (p.sockets socket).connection.mustResetBeforeUse = true →
    ∀ x ∈ p.forwarded, x.1 ≠ p.epoch

section Sequenced

variable {p q : Ports} {options : PortOptions} {a : Actor}

/-- The sequences stay in order where the owner's stream is undisturbed. -/
theorem Sequenced.undisturbed (h : Sequenced p) (hsame : Undisturbed p q) : Sequenced q := by
  have hstream : ∀ k, q.owner = some k → p.owner = some k ∧
      streamOf (q.sockets k) = streamOf (p.sockets k) := by
    intro k hk
    rw [hsame.owner] at hk
    exact ⟨hk, hsame.streams k hk⟩
  refine ⟨hsame.unmoved.idle h.idle, ?_, ?_, fun k hk => ?_, fun k hk hopen => ?_,
    fun k frame hk hunderway => ?_, fun k hk hunderway => ?_⟩
  · rw [hsame.unmoved.forwarded]
    exact h.increasing
  · rw [hsame.unmoved.forwarded, hsame.epoch]
    exact h.past
  · obtain ⟨hp, hs⟩ := hstream k hk
    have hattached := congrArg Stream.attached hs
    have hendpoint := congrArg Stream.endpoint hs
    exact ⟨hattached.trans (h.owner k hp).1, hendpoint.trans (h.owner k hp).2⟩
  · obtain ⟨hp, hs⟩ := hstream k hk
    have hmust := congrArg Stream.mustResetBeforeUse hs
    have hlast := congrArg Stream.lastSequence hs
    simp only [streamOf] at hmust hlast
    rw [hsame.unmoved.forwarded, hsame.epoch, hlast]
    exact h.tracked k hp (hmust ▸ hopen)
  · obtain ⟨hp, hs⟩ := hstream k hk
    have hmiddle := congrArg Stream.underway hs
    have hlast := congrArg Stream.lastSequence hs
    simp only [streamOf] at hmiddle hlast
    rw [hsame.unmoved.forwarded, hsame.epoch, hlast]
    exact h.packet k frame hp (hmiddle ▸ hunderway)
  · obtain ⟨hp, hs⟩ := hstream k hk
    have hmiddle := congrArg Stream.underway hs
    simp only [streamOf] at hmiddle
    rw [hsame.unmoved.forwarded, hsame.epoch]
    exact h.resetting k hp (hmiddle ▸ hunderway)

/-- The next place to be taken is not the owner's. -/
theorem Sequenced.owner_ne (h : Sequenced p) (hplaced : Placed p) :
    p.owner ≠ some p.socketCount := by
  intro hk
  have := hplaced p.socketCount (.inl (h.owner _ hk).1)
  omega

/-- A browser is turned away, or admitted to an epoch without packets or behind a reset. -/
theorem sequenced_connectBrowser (h : Sequenced p) (hplaced : Placed p)
    (hfresh : browserAdmissible p = true → admittedGated p = false →
      ∀ x ∈ p.forwarded, x.1 ≠ p.epoch) : Sequenced (connectBrowser options p) := by
  unfold connectBrowser
  split
  · exact h.undisturbed (undisturbed_other (h.owner_ne hplaced) ⟨rfl, id⟩ rfl rfl rfl
      (fun _ hk => Function.update_of_ne hk _ _))
  · next hadmissible =>
    rw [Bool.not_eq_true', Bool.not_eq_false] at hadmissible
    have hadmitted : Sequenced (admitBrowser p) := by
      refine ⟨h.idle, h.increasing, h.past, fun k hk => ?_, fun k hk hopen => ?_,
        fun k frame hk hunderway => ?_, fun k hk hunderway => ?_⟩
      · cases hk
        simp [admitBrowser]
      · cases hk
        have hgate : admittedGated p = false := by
          simpa [admitBrowser, freshConnection] using hopen
        intro x hx hepoch
        exact absurd hepoch (hfresh hadmissible hgate x hx)
      · cases hk
        simp [admitBrowser] at hunderway
      · cases hk
        simp [admitBrowser] at hunderway
    split
    · exact hadmitted.undisturbed (undisturbed_relayed (relayed_flushToBrowser options _)
        (unmoved_flushToBrowser options _))
    · exact hadmitted

/-- Without an owner only the history counts. -/
theorem Sequenced.ownerless (h : Sequenced p) (hunmoved : Unmoved p q) (hepoch : q.epoch = p.epoch)
    (hnone : q.owner = none) : Sequenced q := by
  refine ⟨hunmoved.idle h.idle, ?_, ?_, fun k hk => ?_, fun k hk => ?_, fun k _ hk => ?_,
    fun k hk => ?_⟩
  · rw [hunmoved.forwarded]
    exact h.increasing
  · rw [hunmoved.forwarded, hepoch]
    exact h.past
  all_goals
    rw [hnone] at hk
    cases hk

/-- An owner that is gone leaves an epoch in which nobody owns the endpoint. -/
theorem sequenced_closeBrowser (h : Sequenced p) (socket : ℕ) :
    Sequenced (closeBrowser socket p).2 := by
  unfold closeBrowser
  dsimp only
  split
  · next hother =>
    exact h.undisturbed (undisturbed_other hother ⟨rfl, id⟩ rfl rfl rfl
      (fun _ hk => Function.update_of_ne hk _ _))
  · have hleft : Sequenced
        { clearPendingBrowserAdmission (detach socket p) with owner := none } :=
      h.ownerless ⟨rfl, id⟩ rfl rfl
    have hsame := undisturbed_disarm
      { clearPendingBrowserAdmission (detach socket p) with owner := none }
    have hreleased : Sequenced (releaseOwner (detach socket p)) := hleft.undisturbed hsame
    have hnone : (releaseOwner (detach socket p)).owner = none := hsame.owner
    split
    · exact hreleased.ownerless ⟨rfl, id⟩ rfl hnone
    · split
      · exact hreleased
      · exact hreleased.ownerless ⟨rfl, id⟩ rfl hnone

/-- The stream of one socket changes. -/
theorem Sequenced.modifySocket {socket : ℕ} {f : Socket → Socket} (h : Sequenced p)
    (hplace : ∀ k : Socket, (f k).attached = k.attached ∧ (f k).endpoint = k.endpoint)
    (htracked : p.owner = some socket →
      (f (p.sockets socket)).connection.mustResetBeforeUse = false →
      ∀ x ∈ p.forwarded, x.1 = p.epoch → (x.2 : ℤ) ≤ (f (p.sockets socket)).lastSequence)
    (hpacket : ∀ frame, p.owner = some socket →
      (f (p.sockets socket)).underway = .packet frame → frame.epoch ≤ p.epoch ∧
        (∀ x ∈ p.forwarded, x.1 = frame.epoch → x.2 < frame.sequence) ∧
        (frame.epoch = p.epoch → (frame.sequence : ℤ) ≤ (f (p.sockets socket)).lastSequence))
    (hresetting : p.owner = some socket → (f (p.sockets socket)).underway = .resetting →
      ∀ x ∈ p.forwarded, x.1 ≠ p.epoch) : Sequenced (modifySocket socket f p) := by
  refine ⟨h.idle, h.increasing, h.past, fun k hk => ?_, fun k hk => ?_, fun k frame hk => ?_,
    fun k hk => ?_⟩
  · rw [sockets_modifySocket]
    split
    · next heq =>
      rw [(hplace _).1, (hplace _).2, ← heq]
      exact h.owner k hk
    · exact h.owner k hk
  · rw [sockets_modifySocket]
    split
    · next heq => exact htracked (heq ▸ hk)
    · exact h.tracked k hk
  · rw [sockets_modifySocket]
    split
    · next heq => exact hpacket frame (heq ▸ hk)
    · exact h.packet k frame hk
  · rw [sockets_modifySocket]
    split
    · next heq => exact hresetting (heq ▸ hk)
    · exact h.resetting k hk

/-- A handler that is in the middle of nothing. -/
theorem sequenced_endUnderway (h : Sequenced p) (socket : ℕ) :
    Sequenced (endUnderway socket p) :=
  h.modifySocket (fun _ => ⟨rfl, rfl⟩) (fun hk => h.tracked socket hk)
    (fun _ _ hunderway => by cases hunderway) (fun _ hunderway => by cases hunderway)

/-- A sequence that is taken is above all that were forwarded in its epoch. -/
theorem sequenced_takeSequence (h : Sequenced p) {socket : ℕ} {frame : FwavFrame}
    (htakes : Takes a socket frame p)
    (horder : (p.sockets socket).lastSequence < frame.sequence) :
    Sequenced (takeSequence socket frame p) := by
  refine h.modifySocket (fun _ => ⟨rfl, rfl⟩) (fun hk hopen x hx hepoch => ?_)
    (fun frame' hk hunderway => ?_) (fun hk hunderway => ?_)
  · exact (h.tracked socket hk hopen x hx hepoch).trans horder.le
  · dsimp only at hunderway
    split at hunderway
    · next htype =>
      cases hunderway
      have hopen : (p.sockets socket).connection.mustResetBeforeUse = false := by
        by_contra hmust
        rw [Bool.not_eq_false] at hmust
        have hreset := htakes.open_ hmust
        rw [htype] at hreset
        cases hreset
      refine ⟨htakes.epoch.le, fun x hx hepoch => ?_, fun _ => le_rfl⟩
      have hlast := h.tracked socket hk hopen x hx (hepoch.trans htakes.epoch)
      omega
    · cases hunderway
  · dsimp only at hunderway
    split at hunderway <;> cases hunderway

/-- The packet of the owner comes after those that were forwarded. The invariant has that of a
packet under way. -/
theorem sequenced_forwards (h : Sequenced p) {socket : ℕ} {frame : FwavFrame} {now : ℕ}
    (hk : p.owner = some socket) (htype : frame.type = .fipsPacket)
    (hunderway : (p.sockets socket).underway = .packet frame)
    (haccepts : acceptBrowserPacket options frame now p = .ok q) :
    Sequenced (endUnderway socket q) := by
  have hrelayed := relayed_acceptBrowserPacket options now p htype
  rw [haccepts] at hrelayed
  obtain ⟨hidle, hforwarded | hforwarded⟩ := acceptBrowserPacket_ok haccepts h.idle
  · exact sequenced_endUnderway
      (h.undisturbed (undisturbed_relayed hrelayed ⟨hforwarded, fun _ => hidle⟩)) socket
  · obtain ⟨hepoch, hbefore, hlast⟩ := h.packet socket frame hk hunderway
    have howner : q.owner = p.owner := hrelayed.owner
    have hsame : q.epoch = p.epoch := hrelayed.epoch
    have hstream : ∀ k, streamOf (q.sockets k) = streamOf (p.sockets k) := by
      intro k
      obtain ⟨frames, -, hq⟩ := hrelayed.said k
      have hq' : q.sockets k = { p.sockets k with
        sent := (p.sockets k).sent ++ frames.map Outbound.frame } := hq
      rw [hq']
      rfl
    have hmem : ∀ x ∈ q.forwarded, x ∈ p.forwarded ∨ x = (frame.epoch, frame.sequence) := by
      intro x hx
      rw [hforwarded] at hx
      rcases List.mem_append.mp hx with hx | hx
      · exact .inl hx
      · exact .inr (List.mem_singleton.mp hx)
    have hended : ∀ k, q.owner = some k → k = socket := by
      intro k hq
      rw [howner, hk] at hq
      exact (Option.some.inj hq).symm
    refine ⟨hidle, ?_, ?_, fun k hq => ?_, fun k hq hopen => ?_, fun k frame' hq hmiddle => ?_,
      fun k hq hmiddle => ?_⟩
    · change q.forwarded.Pairwise _
      rw [hforwarded]
      refine List.pairwise_append.mpr ⟨h.increasing, List.pairwise_singleton _ _, ?_⟩
      intro x hx y hy hxy
      rw [List.mem_singleton.mp hy] at hxy ⊢
      exact hbefore x hx hxy
    · intro x hx
      change x.1 ≤ q.epoch
      rw [hsame]
      rcases hmem x hx with hx | rfl
      · exact h.past x hx
      · exact hepoch
    · have hattached := congrArg Stream.attached (hstream k)
      have hendpoint := congrArg Stream.endpoint (hstream k)
      obtain rfl := hended k hq
      simp only [endUnderway, modifySocket, Function.update_self]
      exact ⟨hattached.trans (h.owner k hk).1, hendpoint.trans (h.owner k hk).2⟩
    · obtain rfl := hended k hq
      have hmust := congrArg Stream.mustResetBeforeUse (hstream k)
      have hsequence := congrArg Stream.lastSequence (hstream k)
      simp only [streamOf] at hmust hsequence
      simp only [endUnderway, modifySocket, Function.update_self] at hopen ⊢
      rw [hmust] at hopen
      rw [hsequence, hsame]
      intro x hx hxepoch
      rcases hmem x hx with hx | rfl
      · exact h.tracked k hk hopen x hx hxepoch
      · exact hlast hxepoch
    · obtain rfl := hended k hq
      simp [endUnderway, modifySocket] at hmiddle
    · obtain rfl := hended k hq
      simp [endUnderway, modifySocket] at hmiddle

/-- After its reset the stream of a handler begins anew. -/
theorem sequenced_restartStream (h : Sequenced p) {socket : ℕ}
    (hunderway : (p.sockets socket).underway = .resetting) :
    Sequenced (restartStream socket p) :=
  h.modifySocket (fun _ => ⟨rfl, rfl⟩)
    (fun hk _ x hx hepoch => absurd hepoch (h.resetting socket hk hunderway x hx))
    (fun _ _ hmiddle => by cases hmiddle) (fun _ hmiddle => by cases hmiddle)

/-- A RESET that is not carried out lets its connection go on. -/
theorem sequenced_recovers {f : Ports → Ports} (hf : Recovers a f) (h : Sequenced p)
    (hturn : InTurn a p) (hepoch : maxEpoch ≤ p.epoch) : Sequenced (f p) := by
  rcases hf with ⟨-, rfl⟩ | ⟨socket, frame, hcarries, htype, rfl⟩
  · exact h
  · refine h.modifySocket (fun _ => ⟨rfl, rfl⟩) (fun hk _ x hx hxepoch => ?_)
      (fun frame' hk => h.packet socket frame' hk) (fun hk => h.resetting socket hk)
    cases hmust : (p.sockets socket).connection.mustResetBeforeUse with
    | false => exact h.tracked socket hk hmust x hx hxepoch
    | true => exact absurd hxepoch (hturn.lasts socket frame hcarries htype hepoch hk hmust x hx)

/-- What a reset leaves of a socket. -/
theorem socket_resetPorts (a : Actor) (p : Ports) (k : ℕ) :
    ((resetPorts a p).sockets k).attached = (p.sockets k).attached ∧
      ((resetPorts a p).sockets k).endpoint = (p.sockets k).endpoint ∧
      ((resetPorts a p).sockets k).underway =
        if handles a k then .resetting else (p.sockets k).underway := by
  have hkept : (renewSocket (p.epoch + 1) (p.sockets k)).underway = (p.sockets k).underway := by
    unfold renewSocket
    split <;> rfl
  exact ⟨view_resetPorts Socket.attached (fun _ _ _ _ => rfl) a p k,
    view_resetPorts Socket.endpoint (fun _ _ _ _ => rfl) a p k,
    congrArg (fun underway => if handles a k then Underway.resetting else underway) hkept⟩

/-- In a new epoch nothing is forwarded yet: all that was forwarded carries an epoch below it. -/
theorem sequenced_resets {f : Ports → Ports} (hf : Recovers a f) (h : Sequenced p) :
    Sequenced (resetPorts a (disarmAcousticSession (f p))) := by
  have hsame := undisturbed_disarm (f p)
  have hrecovered : (f p).epoch = p.epoch ∧ (f p).forwarded = p.forwarded ∧
      (f p).owner = p.owner ∧ ∀ k, ((f p).sockets k).attached = (p.sockets k).attached ∧
        ((f p).sockets k).endpoint = (p.sockets k).endpoint ∧
        ((f p).sockets k).underway = (p.sockets k).underway := by
    rcases hf with ⟨-, rfl⟩ | ⟨socket, frame, -, -, rfl⟩
    · exact ⟨rfl, rfl, rfl, fun _ => ⟨rfl, rfl, rfl⟩⟩
    · refine ⟨rfl, rfl, rfl, fun k => ?_⟩
      unfold modifyConnection
      rw [sockets_modifySocket]
      split
      · next heq => rw [heq]; exact ⟨rfl, rfl, rfl⟩
      · exact ⟨rfl, rfl, rfl⟩
  obtain ⟨hepoch, hforwarded, howner, hsockets⟩ := hrecovered
  have hepoch' : (resetPorts a (disarmAcousticSession (f p))).epoch = p.epoch + 1 :=
    congrArg (· + 1) (hsame.epoch.trans hepoch)
  have hforwarded' : (resetPorts a (disarmAcousticSession (f p))).forwarded = p.forwarded :=
    hsame.unmoved.forwarded.trans hforwarded
  have howner' : (resetPorts a (disarmAcousticSession (f p))).owner = p.owner :=
    hsame.owner.trans howner
  have hnew : ∀ x ∈ p.forwarded, x.1 ≠ p.epoch + 1 := by
    intro x hx heq
    have := h.past x hx
    omega
  have hkept : ∀ k, p.owner = some k →
      ((disarmAcousticSession (f p)).sockets k).attached = (p.sockets k).attached ∧
      ((disarmAcousticSession (f p)).sockets k).endpoint = (p.sockets k).endpoint ∧
      ((disarmAcousticSession (f p)).sockets k).underway = (p.sockets k).underway := by
    intro k hk
    have hstream := hsame.streams k (howner.trans hk)
    have hattached := congrArg Stream.attached hstream
    have hendpoint := congrArg Stream.endpoint hstream
    have hmiddle := congrArg Stream.underway hstream
    exact ⟨hattached.trans (hsockets k).1, hendpoint.trans (hsockets k).2.1,
      hmiddle.trans (hsockets k).2.2⟩
  refine ⟨rfl, ?_, ?_, fun k hk => ?_, fun k hk _ => ?_, fun k frame hk hunderway => ?_,
    fun k hk _ => ?_⟩
  · rw [hforwarded']
    exact h.increasing
  · rw [hforwarded', hepoch']
    exact fun x hx => (h.past x hx).trans (Nat.le_succ _)
  · rw [howner'] at hk
    obtain ⟨hattached, hendpoint, -⟩ := socket_resetPorts a (disarmAcousticSession (f p)) k
    rw [hattached, hendpoint, (hkept k hk).1, (hkept k hk).2.1]
    exact h.owner k hk
  · rw [hforwarded', hepoch']
    exact fun x hx heq => absurd heq (hnew x hx)
  · rw [howner'] at hk
    rw [(socket_resetPorts a (disarmAcousticSession (f p)) k).2.2, (hkept k hk).2.2] at hunderway
    split at hunderway
    · cases hunderway
    · obtain ⟨hpast, hbefore, -⟩ := h.packet k frame hk hunderway
      rw [hforwarded', hepoch']
      refine ⟨hpast.trans (Nat.le_succ _), hbefore, fun heq => ?_⟩
      omega
  · rw [hforwarded', hepoch']
    exact hnew

/-- A move that concerns the stream keeps the sequences in order. -/
theorem Sequenced.move (h : Sequenced p) (hplaced : Placed p) (hmove : StreamMove options a p q)
    (hturn : InTurn a p) : Sequenced q := by
  cases hmove with
  | greets ha => exact sequenced_connectBrowser h hplaced (hturn.greets ha)
  | leaves => exact sequenced_closeBrowser h _
  | takes htakes horder => exact sequenced_takeSequence h htakes horder
  | @forwards _ socket frame _ hcarries htype hunderway haccepts =>
    have htakes : takesPacket socket frame p = true := by
      simp only [takesPacket, htype, hunderway, decide_true, Bool.true_or, Bool.and_self]
    exact sequenced_forwards h (hturn.packets _ _ hcarries htakes) htype hunderway haccepts
  | exhausts hf hepoch => exact sequenced_recovers hf h hturn hepoch
  | resets hf => exact sequenced_resets hf h
  | restarts hcarries htype hunderway => exact sequenced_restartStream h hunderway

/-- Whether a frame is such a packet rests on its socket and the epoch. -/
theorem takesPacket_same {socket : ℕ} (frame : FwavFrame)
    (hstream : streamOf (q.sockets socket) = streamOf (p.sockets socket))
    (hepoch : q.epoch = p.epoch) :
    takesPacket socket frame q = takesPacket socket frame p := by
  have hmiddle := congrArg Stream.underway hstream
  have hmust := congrArg Stream.mustResetBeforeUse hstream
  have hlast := congrArg Stream.lastSequence hstream
  simp only [streamOf] at hmiddle hmust hlast
  simp only [takesPacket, hepoch, hmiddle, hmust, hlast]

/-- A message of the worker takes its sequence or leaves its stream alone. -/
theorem stream_handleFipsMessage (options : PortOptions) {socket : ℕ} {rawData : Bytes}
    {frame : FwavFrame} (hdecode : decodeFrame rawData = .ok frame) (now : ℕ) (p : Ports) :
    (handleFipsMessage options socket ⟨true, rawData⟩ now p).epoch = p.epoch ∧
      (streamOf ((handleFipsMessage options socket ⟨true, rawData⟩ now p).sockets socket) =
          streamOf (p.sockets socket) ∨
        streamOf ((handleFipsMessage options socket ⟨true, rawData⟩ now p).sockets socket) =
          streamOf ((takeFipsSequence socket frame.sequence p).sockets socket)) := by
  have hrejected : ∀ r : Ports, (rejectSocket socket r).epoch = r.epoch ∧
      streamOf ((rejectSocket socket r).sockets socket) = streamOf (r.sockets socket) := by
    intro r
    unfold rejectSocket
    rw [sockets_modifySocket, if_pos rfl]
    exact ⟨rfl, rfl⟩
  have hmoved : ∀ {r s : Ports}, Relayed r s →
      s.epoch = r.epoch ∧ streamOf (s.sockets socket) = streamOf (r.sockets socket) := by
    intro r s h
    obtain ⟨frames, -, hs⟩ := h.said socket
    rw [hs]
    exact ⟨h.epoch, rfl⟩
  rcases handleFipsMessage_cases options socket ⟨true, rawData⟩ now p with
    heq | ⟨frame', -, hdecode', htype, -, -, hcases⟩
  · rw [heq]
    exact ⟨(hrejected p).1, .inl (hrejected p).2⟩
  · rw [hdecode] at hdecode'
    cases hdecode'
    have hqueued := relayed_enqueuePacket options .fipsToBrowser now
      (takeFipsSequence socket frame.sequence p) htype
    rcases hcases with heq | ⟨thrown, henqueue, heq⟩ | ⟨r, henqueue, heq⟩
    · rw [heq]
      exact ⟨(hrejected _).1, .inr (hrejected _).2⟩
    · rw [henqueue] at hqueued
      obtain ⟨hepoch, hsame⟩ := hmoved hqueued
      rw [heq]
      exact ⟨(hrejected _).1.trans hepoch, .inr ((hrejected _).2.trans hsame)⟩
    · rw [henqueue] at hqueued
      obtain ⟨hepoch, hsame⟩ := hmoved (hqueued.trans (relayed_flushToBrowser options r))
      rw [heq]
      exact ⟨hepoch, .inr hsame⟩

/-- So nothing that is only said or relayed changes it. -/
theorem takesPacket_relayed (socket : ℕ) (frame : FwavFrame) (h : Relayed p q) :
    takesPacket socket frame q = takesPacket socket frame p := by
  obtain ⟨frames, -, hk⟩ := h.said socket
  refine takesPacket_same frame ?_ h.epoch
  rw [hk]
  rfl

/-- Nor does a change of a socket that leaves its stream alone. -/
theorem takesPacket_modify (socket : ℕ) (frame : FwavFrame) {index : ℕ} {f : Socket → Socket}
    (hf : ∀ k, streamOf (f k) = streamOf k) :
    takesPacket socket frame (modifySocket index f p) = takesPacket socket frame p := by
  exact takesPacket_same frame (view_modifySocket streamOf hf index p socket) rfl

/-- Once a message of the worker was handled its frame is no such packet, unless it was one. -/
theorem takesPacket_of_submits {socket : ℕ} {rawData : Bytes} {frame : FwavFrame} {now : ℕ}
    (hdecode : decodeFrame rawData = .ok frame)
    (htakes : takesPacket socket frame (handleFipsMessage options socket ⟨true, rawData⟩ now p) =
      true) : takesPacket socket frame p = true := by
  obtain ⟨hepoch, hsame | htaken⟩ := stream_handleFipsMessage options hdecode now p
  · rwa [takesPacket_same frame hsame hepoch] at htakes
  · have hlast := congrArg Stream.lastSequence htaken
    have hmiddle := congrArg Stream.underway htaken
    simp only [streamOf, takeFipsSequence, sockets_modifySocket, if_true] at hlast hmiddle
    simp only [takesPacket, hlast, hmiddle, lt_irrefl, decide_false, Bool.and_false,
      Bool.or_false, Bool.and_eq_true] at htakes
    simp only [takesPacket, htakes.1, htakes.2, Bool.true_or, Bool.and_self]

/-- A packet whose sequence is taken was such a packet. -/
theorem takesPacket_of_takes {socket : ℕ} {frame : FwavFrame}
    (h : Takes a socket frame p) (htype : frame.type = .fipsPacket)
    (horder : (p.sockets socket).lastSequence < (frame.sequence : ℤ)) :
    takesPacket socket frame p = true := by
  have hopen : (p.sockets socket).connection.mustResetBeforeUse = false := by
    by_contra hmust
    rw [Bool.not_eq_false] at hmust
    have hreset := h.open_ hmust
    rw [htype] at hreset
    cases hreset
  simp [takesPacket, htype, h.epoch, hopen, horder]

/-- Whatever the handler of a frame does, the frame is such a packet only if it was one before. Most
moves leave what is asked of it alone, or belong to another frame. -/
theorem takesPacket_of_move {socket : ℕ} {frame : FwavFrame} (h : PortMove options a p q)
    (hcarries : Carries a socket frame) (htakes : takesPacket socket frame q = true) :
    takesPacket socket frame p = true := by
  have htype : frame.type = .fipsPacket := by
    simp only [takesPacket, Bool.and_eq_true, decide_eq_true_eq] at htakes
    exact htakes.1
  have hother : ∀ {socket' : ℕ} {frame' : FwavFrame}, Carries a socket' frame' →
      frame'.type = .fipsPacket ∧ socket' = socket ∧ frame' = frame := by
    intro socket' frame' h
    obtain ⟨rfl, rfl⟩ := carries_unique hcarries h
    exact ⟨htype, rfl, rfl⟩
  -- a frame of another type has no move of this handler
  have hkind : ∀ {socket' : ℕ} {frame' : FwavFrame} {type : MessageType},
      Carries a socket' frame' → frame'.type = type → type ≠ .fipsPacket →
      takesPacket socket frame p = true := by
    intro socket' frame' type h heq hne
    exact absurd (heq.symm.trans (hother h).1) hne
  have hactor : ∀ {P : Prop}, (∀ message, a ≠ .handler socket message) → P := by
    intro P hne
    obtain ⟨rawData, ha, -⟩ := hcarries
    exact absurd ha (hne _)
  cases h with
  | greets ha => exact hactor (fun _ h => by rw [ha] at h; cases h)
  | joins ha => exact hactor (fun _ h => by rw [ha] at h; cases h)
  | receives ha => exact hactor (fun _ h => by rw [ha] at h; cases h)
  | notes hf =>
    refine (takesPacket_modify socket frame (fun k => ?_)).symm.trans htakes
    simp only [streamOf, (hf k.connection).1]
  | rejects index =>
    unfold rejectSocket at htakes
    rwa [takesPacket_modify socket frame (fun k => by rfl)] at htakes
  | leavesFips ha => exact hactor (fun _ h => by rw [ha] at h; cases h)
  | leaves ha => exact hactor (fun _ h => by rw [ha] at h; cases h)
  | retries ha => exact hactor (fun _ h => by rw [ha] at h; cases h)
  | @submits index message now ha hendpoint =>
    obtain ⟨rawData, ha', hdecode⟩ := hcarries
    rw [ha] at ha'
    cases ha'
    exact takesPacket_of_submits hdecode htakes
  | answers now h heq => exact hkind h.message heq (by decide)
  | readies now h heq => exact hkind h.message heq (by decide)
  | disarms h heq => exact hkind h.message heq (by decide)
  | hails h heq => exact hkind h.message heq (by decide)
  | @takes index frame' h horder =>
    obtain ⟨-, rfl, rfl⟩ := hother h.message
    exact takesPacket_of_takes h htype horder
  | forwards h heq hunderway haccepts =>
    obtain ⟨-, rfl, rfl⟩ := hother h
    simp [takesPacket, htype, hunderway]
  | @forwardFails thrown frame' now heq h =>
    have hsame := relayed_acceptBrowserPacket options now p heq
    rw [h] at hsame
    exact (takesPacket_relayed socket frame hsame).symm.trans htakes
  | errs h heq => exact hkind h heq (by decide)
  | exhausts hf =>
    rcases hf with ⟨⟨call, ha⟩, -⟩ | ⟨index, frame', h, heq, -⟩
    · exact hactor (fun _ h => by rw [ha] at h; cases h)
    · exact hkind h heq (by decide)
  | resets hf =>
    rcases hf with ⟨⟨call, ha⟩, -⟩ | ⟨index, frame', h, heq, -⟩
    · exact hactor (fun _ h => by rw [ha] at h; cases h)
    · exact hkind h heq (by decide)
  | endsReset => exact htakes
  | announces =>
    have hsame : streamOf ((announceReset a p).sockets socket) = streamOf (p.sockets socket) :=
      view_announceReset streamOf (fun _ _ => rfl) a socket
    rwa [takesPacket_same frame hsame rfl] at htakes
  | restarts h heq => exact hkind h heq (by decide)
  | flushes =>
    rwa [takesPacket_relayed socket frame (relayed_flushToBrowser options p)] at htakes
  | enqueues frame' now =>
    rwa [takesPacket_relayed socket frame (relayed_enqueue frame' now p)] at htakes
  | tells index =>
    unfold send at htakes
    rwa [takesPacket_modify socket frame (fun k => by rfl)] at htakes
  | @broadcasts message _ =>
    have hsame : streamOf ((broadcast message p).sockets socket) = streamOf (p.sockets socket) :=
      view_broadcast streamOf (fun _ => rfl) p socket
    rwa [takesPacket_same frame hsame rfl] at htakes
  | refuses => exact htakes

/-- What an actor may count on is not undone where the stream of the owner is left alone. -/
theorem InTurn.undisturbed (h : InTurn a p) (hsame : Undisturbed p q)
    (hpackets : ∀ socket frame, Carries a socket frame → takesPacket socket frame q = true →
      takesPacket socket frame p = true)
    (hgreets : ∀ k, a = .greeting k → k < q.socketCount ∨ q.socketCount = p.socketCount ∧
      browserAdmissible q = browserAdmissible p) : InTurn a q := by
  refine ⟨fun socket frame hcarries htakes => ?_, fun ha hadmissible hgate => ?_,
    fun socket frame hcarries htype hepoch howner hmust => ?_⟩
  · rw [hsame.owner]
    exact h.packets socket frame hcarries (hpackets socket frame hcarries htakes)
  · rcases hgreets _ ha with hlt | ⟨hcount, hadmissible'⟩
    · exact absurd hlt (lt_irrefl _)
    · rw [hsame.unmoved.forwarded, hsame.epoch]
      rw [hcount] at ha
      exact h.greets ha (hadmissible' ▸ hadmissible) (hsame.admission ▸ hgate)
  · rw [hsame.owner] at howner
    rw [hsame.epoch] at hepoch ⊢
    have hstream := congrArg Stream.mustResetBeforeUse (hsame.streams socket howner)
    simp only [streamOf] at hstream
    rw [hsame.unmoved.forwarded]
    exact h.lasts socket frame hcarries htype hepoch howner (hstream ▸ hmust)

/-- A RESET takes its connection out of recovery. -/
theorem open_of_recovers {f : Ports → Ports} (hf : Recovers a f) {socket : ℕ} {frame : FwavFrame}
    (hcarries : Carries a socket frame) :
    frame.type = .reset ∧ (f p).owner = p.owner ∧
      ((f p).sockets socket).connection.mustResetBeforeUse = false := by
  obtain ⟨htype, rfl⟩ := recovers_of_carries hf hcarries
  refine ⟨htype, rfl, ?_⟩
  unfold modifyConnection
  rw [sockets_modifySocket, if_pos rfl]
  rfl

/-- What an actor is in the middle of is kept by its own moves where the stream is concerned. -/
theorem InTurn.stream (h : InTurn a p) (hmove : StreamMove options a p q)
    (hpackets : ∀ socket frame, Carries a socket frame → takesPacket socket frame q = true →
      takesPacket socket frame p = true)
    (hgreets : ∀ k, a = .greeting k → k < q.socketCount ∨ q.socketCount = p.socketCount ∧
      browserAdmissible q = browserAdmissible p) : InTurn a q := by
  have hhandler : ∀ {socket : ℕ} {frame : FwavFrame}, Carries a socket frame →
      q.owner = p.owner → (∀ other frame', Carries a other frame' → frame'.type = .reset →
        maxEpoch ≤ q.epoch → q.owner = some other →
        (q.sockets other).connection.mustResetBeforeUse = true →
        ∀ x ∈ q.forwarded, x.1 ≠ q.epoch) → InTurn a q := by
    intro socket frame hcarries howner hlasts
    refine ⟨fun other frame' h' htakes => ?_, fun ha => ?_, hlasts⟩
    · rw [howner]
      exact h.packets other frame' h' (hpackets other frame' h' htakes)
    · obtain ⟨rawData, ha', -⟩ := hcarries
      rw [ha] at ha'
      cases ha'
  have hnone : (∀ socket frame, ¬Carries a socket frame) → a ≠ .greeting q.socketCount →
      InTurn a q := fun hcarries ha =>
    ⟨fun socket frame h' => absurd h' (hcarries socket frame), fun ha' => absurd ha' ha,
      fun socket frame h' => absurd h' (hcarries socket frame)⟩
  cases hmove with
  | greets ha =>
    refine hnone (fun socket frame ⟨rawData, ha', _⟩ => ?_) (fun ha' => ?_)
    · rw [ha] at ha'
      cases ha'
    · have hcount : (connectBrowser options p).socketCount = p.socketCount + 1 := by
        unfold connectBrowser
        split
        · rfl
        · split
          · exact (relayed_flushToBrowser options (admitBrowser p)).socketCount
          · rfl
      rw [ha, hcount] at ha'
      simp at ha'
  | leaves ha =>
    refine hnone (fun socket frame ⟨rawData, ha', _⟩ => ?_) (fun ha' => ?_)
    · rw [ha] at ha'
      cases ha'
    · rw [ha] at ha'
      cases ha'
  | @takes socket frame htakes horder =>
    refine hhandler htakes.message rfl (fun other frame' h' htype hepoch howner hmust => ?_)
    refine h.lasts other frame' h' htype hepoch howner ?_
    unfold takeSequence at hmust
    rw [sockets_modifySocket] at hmust
    split at hmust
    · next heq => rw [heq]; exact hmust
    · exact hmust
  | @forwards q socket frame now hcarries htype hunderway haccepts =>
    have hrelayed := relayed_acceptBrowserPacket options now p htype
    rw [haccepts] at hrelayed
    refine hhandler hcarries hrelayed.owner (fun other frame' h' htype' => ?_)
    obtain ⟨-, rfl⟩ := carries_unique hcarries h'
    rw [htype] at htype'
    cases htype'
  | @exhausts f hf hepoch =>
    by_cases hcarries : ∃ socket frame, Carries a socket frame
    · obtain ⟨socket, frame, hcarries⟩ := hcarries
      refine hhandler hcarries (open_of_recovers hf hcarries).2.1
        (fun other frame' h' _ _ _ hmust => ?_)
      rw [(open_of_recovers hf h').2.2] at hmust
      cases hmust
    · refine hnone (fun socket frame h' => hcarries ⟨socket, frame, h'⟩) (fun ha => ?_)
      rcases hf with ⟨⟨call, ha'⟩, -⟩ | ⟨socket, frame, h', -⟩
      · rw [ha] at ha'
        cases ha'
      · exact hcarries ⟨socket, frame, h'⟩
  | @resets f hf =>
    have hsame := undisturbed_disarm (f p)
    by_cases hcarries : ∃ socket frame, Carries a socket frame
    · obtain ⟨socket, frame, hcarries⟩ := hcarries
      refine hhandler hcarries (hsame.owner.trans (open_of_recovers hf hcarries).2.1)
        (fun other frame' h' _ _ howner hmust => ?_)
      have howner' : (f p).owner = some other := hsame.owner.symm.trans howner
      have hstream := congrArg Stream.mustResetBeforeUse (hsame.streams other howner')
      simp only [streamOf] at hstream
      have hopen := hstream.trans (open_of_recovers hf h').2.2
      simp only [resetPorts, clearQueues, record, refreshState, clearPendingBrowserAdmission,
        renewSocket] at hmust
      split at hmust
      · cases hmust
      · rw [hopen] at hmust
        cases hmust
    · refine hnone (fun socket frame h' => hcarries ⟨socket, frame, h'⟩) (fun ha => ?_)
      rcases hf with ⟨⟨call, ha'⟩, -⟩ | ⟨socket, frame, h', -⟩
      · rw [ha] at ha'
        cases ha'
      · exact hcarries ⟨socket, frame, h'⟩
  | @restarts socket frame hcarries htype hunderway =>
    refine hhandler hcarries rfl (fun other frame' h' htype' hepoch howner hmust => ?_)
    refine h.lasts other frame' h' htype' hepoch howner ?_
    unfold restartStream at hmust
    rw [sockets_modifySocket] at hmust
    split at hmust
    · next heq => rw [heq]; exact hmust
    · exact hmust

end Sequenced

section Bridges

variable {options : BridgeServerOptions} {a : Actor} {b b' : Bridge}

/-- What a move of a bridge does to its stream. -/
theorem bridge_undisturbed_or (h : Move options False a b b') (hb : Standing b)
    (hsequenced : Sequenced b.ports) : Undisturbed b.ports b'.ports ∨
      StreamMove options.ports a b.ports b'.ports := by
  cases h with
  | ports h => exact undisturbed_or h hb.placed hsequenced.idle hsequenced.owner
  | trial => exact .inl (.refl _)
  | reads => exact .inl (.refl _)
  | plays => exact .inl (undisturbed_broadcast _ _)
  | results => exact .inl (undisturbed_send _ _ _)
  | answers => exact .inl (undisturbed_send _ _ _)

/-- The same of every move of the bridge, since the trial knows nothing of packets. -/
theorem bridge_takesPacket {socket : ℕ} {frame : FwavFrame} (h : Move options False a b b')
    (hcarries : Carries a socket frame) (htakes : takesPacket socket frame b'.ports = true) :
    takesPacket socket frame b.ports = true := by
  have hsend : ∀ (index : ℕ) (message : Outbound),
      streamOf ((send index message b.ports).sockets socket) =
        streamOf (b.ports.sockets socket) :=
    fun index _ => view_send streamOf (fun _ => rfl) index b.ports socket
  cases h with
  | ports h => exact takesPacket_of_move h hcarries htakes
  | trial => exact htakes
  | reads => exact htakes
  | plays encoded =>
    have hsame : streamOf ((broadcast (.playback encoded) b.ports).sockets socket) =
        streamOf (b.ports.sockets socket) :=
      view_broadcast streamOf (fun _ => rfl) b.ports socket
    rw [takesPacket_same frame hsame rfl] at htakes
    exact htakes
  | results index =>
    rw [takesPacket_same frame (hsend _ _) rfl] at htakes
    exact htakes
  | answers index =>
    rw [takesPacket_same frame (hsend _ _) rfl] at htakes
    exact htakes

/-- What an actor may count on is not undone by its own moves. -/
theorem InTurn.move (h : InTurn a b.ports) (hmove : Move options False a b b') (hb : Standing b)
    (hsequenced : Sequenced b.ports) : InTurn a b'.ports := by
  have hgreets : ∀ k, a = .greeting k → k < b'.ports.socketCount ∨
      b'.ports.socketCount = b.ports.socketCount ∧
        browserAdmissible b'.ports = browserAdmissible b.ports := by
    rintro k rfl
    rcases greeting_bridge hmove with hlt | ⟨hcount, -, hsame⟩
    · exact .inl hlt
    · exact .inr ⟨hcount, hsame⟩
  rcases bridge_undisturbed_or hmove hb hsequenced with hsame | hstream
  · exact h.undisturbed hsame (fun _ _ => bridge_takesPacket hmove) hgreets
  · exact h.stream hstream (fun _ _ => bridge_takesPacket hmove) hgreets

end Bridges

/-- Packets are taken and forwarded for the owner of the browser endpoint only, nobody is admitted
without a reset to an epoch with packets, and in the last epoch, once it has packets, no RESET is
handled for an owner that has to reset first. -/
def PacketsInTurn (w : World) (e : Event) : Prop :=
  let p := w.state.ports
  (actorOf w e = .greeting p.socketCount → browserAdmissible p = true → admittedGated p = false →
    ∀ x ∈ p.forwarded, x.1 ≠ p.epoch) ∧
  ∀ y ∈ carried (actorOf w e), (takesPacket y.1 y.2 p = true → p.owner = some y.1) ∧
    (y.2.type = .reset → maxEpoch ≤ p.epoch → p.owner = some y.1 →
      (p.sockets y.1).connection.mustResetBeforeUse = true → ∀ x ∈ p.forwarded, x.1 ≠ p.epoch)

instance (w : World) (e : Event) : Decidable (PacketsInTurn w e) :=
  inferInstanceAs (Decidable (_ ∧ ∀ y ∈ carried (actorOf w e), _))

/-- The condition on a step is what its actor may count on at its beginning. -/
theorem PacketsInTurn.inTurn {w : World} {e : Event} (h : PacketsInTurn w e) :
    InTurn (actorOf w e) w.state.ports :=
  ⟨fun socket frame hcarries => (h.2 (socket, frame) (carried_of_carries hcarries)).1, h.1,
    fun socket frame hcarries => (h.2 (socket, frame) (carried_of_carries hcarries)).2⟩

/-- The next message is taken: its handler is in the middle of nothing, so what it may count on is
the condition on the step. -/
theorem sequenced_prepares {a : Actor} {b b' : Bridge} (h : Prepares a b b')
    (hI : Sequenced b.ports) (hG : InTurn a b.ports) :
    Sequenced b'.ports ∧ InTurn a b'.ports := by
  cases h with
  | call call => exact ⟨hI, hG⟩
  | message socket message =>
    have htaken : Sequenced (modifySocket socket
        (fun k => { k with inbox := k.inbox.tail, underway := .nothing }) b.ports) :=
      hI.modifySocket (fun _ => ⟨rfl, rfl⟩) (fun hk => hI.tracked socket hk)
        (fun _ _ hmiddle => by cases hmiddle) (fun _ hmiddle => by cases hmiddle)
    have hports : ∃ events, (beginMessage socket message b).ports =
        { modifySocket socket (fun k => { k with inbox := k.inbox.tail, underway := .nothing })
          b.ports with relay := events } := by
      simp only [beginMessage, takeMessage]
      split
      · exact ⟨_, rfl⟩
      · exact ⟨_, rfl⟩
    obtain ⟨events, hports⟩ := hports
    rw [hports]
    refine ⟨htaken.undisturbed ⟨⟨rfl, id⟩, rfl, rfl, rfl, fun _ _ => rfl⟩, ?_⟩
    refine ⟨fun other frame hcarries htakes => ?_, (fun ha => by cases ha),
      fun other frame hcarries htype hepoch howner hmust => ?_⟩
    · have hother : other = socket := by
        obtain ⟨rawData, ha, -⟩ := hcarries
        cases ha
        rfl
      subst hother
      refine hG.packets other frame hcarries ?_
      simp only [takesPacket, modifySocket, Function.update_self, Bool.and_eq_true] at htakes ⊢
      refine ⟨htakes.1, ?_⟩
      rw [Bool.or_eq_true] at htakes ⊢
      refine .inr (htakes.2.resolve_left ?_)
      simp
    · refine hG.lasts other frame hcarries htype hepoch howner ?_
      simp only [modifySocket] at hmust
      rw [Function.update_apply] at hmust
      split at hmust
      · next heq => rw [heq]; exact hmust
      · exact hmust

/-- In every run in which packets come in turn, the forwarded sequences of an epoch increase,
whichever connections they come from, and no packet is forwarded twice. -/
theorem forwarded_increasing (options : BridgeServerOptions) (events : List Event)
    (h : Along (step options) PacketsInTurn (createBridgeServer options) events) :
    let p := (run (step options) (createBridgeServer options) events).state.ports
    p.forwarded.Pairwise (fun x y => x.1 = y.1 → x.2 < y.2) ∧ p.forwarded.Nodup := by
  intro p
  have hsequenced : Sequenced p := by
    refine bridge_invariant (I := fun b => Sequenced b.ports) (G := fun a b => InTurn a b.ports)
      (fun w e hin _ => hin.inTurn) ?_ ?_ ?_ h
    · intro a b b' _ hprepares hI hG
      exact sequenced_prepares hprepares hI hG
    · intro a b b' hb hmove hI hG
      refine ⟨?_, hG.move hmove hb hI⟩
      rcases bridge_undisturbed_or hmove hb hI with hsame | hstream
      · exact hI.undisturbed hsame
      · exact hI.move hb.placed hstream hG
    · constructor <;> simp [createBridgeServer]
  refine ⟨hsequenced.increasing, hsequenced.increasing.imp (fun {x y} hlt heq => ?_)⟩
  rw [heq] at hlt
  exact absurd (hlt rfl) (lt_irrefl _)

/-- A packet of the bench. -/
def benchPacket (epoch sequence : ℕ) : RawMessage :=
  benchMessage
    { type := .fipsPacket
      trafficClass := some 1
      epoch
      sequence
      payload := [7] }

/-- A browser sends two packets to a worker. -/
def benchStream : List Event :=
  [.connectBrowser, .resume 0 .resolved, .connectFips, .receive 0 (benchPacket 1 5), .process 0,
    .resume 0 .resolved, .receive 0 (benchPacket 1 6), .process 0, .resume 0 .resolved]

/-- The browser is gone; the next one resets the bridge and sends a packet of the new epoch. -/
def benchRejoin : List Event :=
  [.closed 0, .connectBrowser, .resume 0 .resolved,
    .receive 2 (benchMessage (resetFrame none 1)), .process 2, .resume 0 .resolved,
    .beginWrite 1, .endWrite 1 true, .resume 0 .resolved, .resume 0 .resolved,
    .resume 0 .resolved, .receive 2 (benchPacket 2 3), .process 2, .resume 0 .resolved]

/-- The packets of both connections are forwarded, each once and in order. -/
theorem forwarded_bench :
    Along (step benchBridge) PacketsInTurn (createBridgeServer benchBridge)
        (benchStream ++ benchRejoin) ∧
      (run (step benchBridge) (createBridgeServer benchBridge)
        (benchStream ++ benchRejoin)).state.ports.forwarded = [(1, 5), (1, 6), (2, 3)] ∧
      [((1 : ℕ), (5 : ℕ)), (1, 6), (2, 3)].Nodup := by
  have hturn : Along (step benchBridge) PacketsInTurn (createBridgeServer benchBridge)
      (benchStream ++ benchRejoin) := by decide +kernel
  have hsame : (run (step benchBridge) (createBridgeServer benchBridge)
      (benchStream ++ benchRejoin)).state.ports.forwarded = [(1, 5), (1, 6), (2, 3)] := by
    decide +kernel
  have h := (forwarded_increasing benchBridge (benchStream ++ benchRejoin) hturn).2
  rw [hsame] at h
  exact ⟨hturn, hsame, h⟩

/-- The operator resets the bridge; a browser sends a packet and is gone, and the next browser
sends it again. -/
def benchTwice : List Event :=
  [.connectBrowser, .resume 0 .resolved, .connectFips, .operatorReset 0, .beginWrite 1,
    .endWrite 1 true, .resume 0 .resolved, .receive 0 (benchPacket 2 5), .process 0,
    .resume 0 .resolved, .closed 0, .connectBrowser, .resume 0 .resolved,
    .receive 2 (benchPacket 2 5), .process 2, .resume 0 .resolved]

/-- In the run below one packet is forwarded twice. -/
theorem not_nodup_twice :
    ¬(run (step benchBridge) (createBridgeServer benchBridge)
      benchTwice).state.ports.forwarded.Nodup := by
  decide +kernel

end Fipwave.PacketForwarding
