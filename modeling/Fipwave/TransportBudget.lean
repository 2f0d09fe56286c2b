import Fipwave.TransportMoves

/-!
# Budget of the sound transport

The bytes reserved under the lock are the bytes of the frames that wait, or
that are dropped while the queue is emptied for a new epoch, so that giving
them back never fails and no lock is ever poisoned. A send succeeds
exactly when the connection is said to be connected and the frame has room.
-/

namespace Fipwave.TransportBudget

open ByteWords FwavProtocol FipsTransport TransportMoves

/-- Bytes of a list of frames. -/
def frameTotal (frames : List OutboundFrame) : ℕ := (frames.map (fun f => f.bytes.length)).sum

@[simp] theorem frameTotal_nil : frameTotal [] = 0 := rfl

@[simp] theorem frameTotal_cons (frame : OutboundFrame) (frames : List OutboundFrame) :
    frameTotal (frame :: frames) = frame.bytes.length + frameTotal frames := rfl

@[simp] theorem frameTotal_append (first second : List OutboundFrame) :
    frameTotal (first ++ second) = frameTotal first + frameTotal second := by
  simp only [frameTotal, List.map_append, List.sum_append]

/-- The bytes reserved are those of the frames whose bytes were not given back: of those that wait,
of one that was just taken, and of those dropped since an epoch began until the queue is empty,
while no browser is ready. -/
def Accounted (r : Runtime) (socket : Serving) : Prop :=
  match socket.work with
  | .idle => r.outboundBytes = frameTotal socket.queue
  | .taken frame => r.outboundBytes = frame.bytes.length + frameTotal socket.queue
  | .writing _ _ => r.outboundBytes = frameTotal socket.queue
  | .draining dropped =>
    r.outboundBytes = frameTotal dropped + frameTotal socket.queue ∧ r.browserReady = false

/-- What the lock and the task agree on. -/
structure Sound (t : SoundTransport) : Prop where
  /-- No holder of the lock panicked. -/
  whole : t.poisoned = false
  /-- A start waits without a task. -/
  starting : t.exclusive = some .starting → t.runtime.state = .starting ∧ Gone t.worker
  /-- A transport that may be started has no task. -/
  startable : t.runtime.state.canStart = true → Gone t.worker
  /-- While a socket is served, callers push to its queue. -/
  served : ∀ socket, t.worker = .serving socket →
    t.runtime.state = .up ∧ t.runtime.sender = some socket.channel ∧
      socket.queue.length ≤ t.config.queueItems ∧ Accounted t.runtime socket
  /-- While none is, nothing is reserved. -/
  away : (∀ socket, t.worker ≠ .serving socket) →
    t.runtime.state ≠ .up ∧ t.runtime.sender = none ∧ t.runtime.outboundBytes = 0
  /-- What is reserved is within the budget. -/
  budget : t.runtime.outboundBytes ≤ t.config.queueBytes

/-- A transport that was only made is sound. -/
theorem sound_made (config : SoundConfig) : Sound (made config) where
  whole := rfl
  starting := nofun
  startable _ := .inl rfl
  served := nofun
  away _ := ⟨nofun, rfl, rfl⟩
  budget := Nat.zero_le _

section Moves

variable {t : SoundTransport}

/-- A worker that serves a socket is not gone. -/
theorem not_gone {socket : Serving} (hsocket : t.worker = .serving socket) : ¬Gone t.worker := by
  intro hgone
  rw [hsocket] at hgone
  rcases hgone with h | h <;> cases h

/-- A move that goes on serving the socket. -/
theorem sound_serving (h : Sound t) {socket : Serving} (hsocket : t.worker = .serving socket)
    {r : Runtime} {next : Serving} {log : List Entry} (hstate : r.state = t.runtime.state)
    (hsender : r.sender = t.runtime.sender) (hchannel : next.channel = socket.channel)
    (hroom : next.queue.length ≤ t.config.queueItems) (haccounted : Accounted r next)
    (hbudget : r.outboundBytes ≤ t.config.queueBytes) :
    Sound { t with runtime := r, worker := .serving next, log := log } := by
  obtain ⟨hup, hto, -, -⟩ := h.served socket hsocket
  refine ⟨h.whole, ?_, ?_, ?_, ?_, hbudget⟩
  · intro hstarting
    exact absurd (h.starting hstarting).2 (not_gone hsocket)
  · intro hcan
    have hnot : r.state.canStart = false := by rw [hstate, hup]; rfl
    exact absurd hcan (by rw [hnot]; exact Bool.false_ne_true)
  · intro other hother
    obtain rfl : next = other := Worker.serving.inj hother
    refine ⟨hstate.trans hup, ?_, hroom, haccounted⟩
    rw [hsender, hto, hchannel]
  · intro hnone
    exact absurd rfl (hnone next)

/-- A move to a task that serves no socket and holds nothing. -/
theorem sound_away (h : Sound t) {r : Runtime} {worker : Worker} {log : List Entry}
    (hnone : ∀ socket, worker ≠ .serving socket) (hnot : r.state ≠ .up)
    (hsender : r.sender = none) (hbytes : r.outboundBytes = 0)
    (hstarting : t.exclusive ≠ some .starting) (hcan : r.state.canStart = true → Gone worker) :
    Sound { t with runtime := r, worker := worker, log := log } := by
  refine ⟨h.whole, ?_, hcan, ?_, ?_, ?_⟩
  · intro hexclusive
    exact absurd hexclusive hstarting
  · intro socket hserving
    exact absurd hserving (hnone socket)
  · intro _
    exact ⟨hnot, hsender, hbytes⟩
  · show r.outboundBytes ≤ t.config.queueBytes
    omega

/-- Whether the bytes are accounted for rests on the count alone. -/
theorem accounted_alike {r r' : Runtime} {socket : Serving} (halike : Alike r r')
    (h : Accounted r socket) : Accounted r' socket := by
  unfold Accounted at *
  cases hwork : socket.work with
  | idle => rw [hwork] at h; exact halike.outboundBytes.trans h
  | taken frame => rw [hwork] at h; exact halike.outboundBytes.trans h
  | writing frame lookedAt => rw [hwork] at h; exact halike.outboundBytes.trans h
  | draining dropped =>
    rw [hwork] at h
    exact ⟨halike.outboundBytes.trans h.1, halike.browserReady.trans h.2⟩

/-- A change of the runtime that leaves the count alone keeps the transport sound. -/
theorem sound_note (h : Sound t) {r : Runtime} (halike : Alike t.runtime r) :
    Sound { t with runtime := r } where
  whole := h.whole
  starting hstarting := ⟨halike.state.trans (h.starting hstarting).1, (h.starting hstarting).2⟩
  startable hcan := h.startable (halike.state ▸ hcan)
  served socket hsocket := by
    obtain ⟨hup, hto, hroom, haccounted⟩ := h.served socket hsocket
    exact ⟨halike.state.trans hup, halike.sender.trans hto, hroom,
      accounted_alike halike haccounted⟩
  away hnone := by
    obtain ⟨hnot, hsender, hbytes⟩ := h.away hnone
    exact ⟨fun hup => hnot (halike.state.symm.trans hup), halike.sender.trans hsender,
      halike.outboundBytes.trans hbytes⟩
  budget := by
    have hbytes := halike.outboundBytes
    have hbudget := h.budget
    show r.outboundBytes ≤ t.config.queueBytes
    omega

/-- What arrives from the bridge leaves the queue's books alone. -/
theorem injects_books {mtu : ℕ} {r : Runtime} {injected : Injected} (h : Injects mtu r injected) :
    injected.runtime.state = r.state ∧ injected.runtime.sender = r.sender ∧
      injected.runtime.outboundBytes = r.outboundBytes := by
  cases h with
  | noted accepted r' halike => exact ⟨halike.state, halike.sender, halike.outboundBytes⟩
  | reset epoch hlater hfits => exact ⟨rfl, rfl, rfl⟩
  | armed proof hlength hstands => exact ⟨rfl, rfl, rfl⟩
  | disarmed proof hproof => exact ⟨rfl, rfl, rfl⟩
  | delivered sequence data hready hmtu hlater => exact ⟨rfl, rfl, rfl⟩

/-- Where an epoch begins, nothing is armed. -/
theorem injects_epoch {mtu : ℕ} {r : Runtime} {injected : Injected} (h : Injects mtu r injected)
    (hchanged : injected.runtime.epoch ≠ r.epoch) : injected.runtime.browserReady = false := by
  cases h with
  | noted accepted r' halike => exact absurd halike.epoch hchanged
  | reset epoch hlater hfits => rfl
  | armed proof hlength hstands => exact absurd rfl hchanged
  | disarmed proof hproof => exact absurd rfl hchanged
  | delivered sequence data hready hmtu hlater => exact absurd rfl hchanged

/-- A message that arrives is taken in, and the worker goes on or leaves. -/
theorem sound_receive (h : Sound t) {channel : ℕ} {queue : List OutboundFrame} {encoded : Bytes}
    {full : Bool} (hsocket : t.worker = .serving ⟨channel, queue, .idle⟩) :
    Sound (receive ⟨channel, queue, .idle⟩ encoded full t) := by
  have hinjects : Injects t.config.mtu t.runtime (injectInbound t.config.mtu full encoded t.runtime) :=
    injects_inbound full encoded
  obtain ⟨hstate, hsender, hbytes⟩ := injects_books hinjects
  obtain ⟨-, -, hroom, haccounted⟩ := h.served _ hsocket
  have hbudget := h.budget
  refine sound_serving h hsocket hstate hsender rfl hroom ?_ (by omega)
  by_cases hnew : (injectInbound t.config.mtu full encoded t.runtime).accepted = true ∧
      (injectInbound t.config.mtu full encoded t.runtime).runtime.epoch ≠ t.runtime.epoch
  · simp only [if_pos hnew]
    have hbooks : t.runtime.outboundBytes = frameTotal queue := haccounted
    refine ⟨?_, injects_epoch hinjects hnew.2⟩
    simp only [frameTotal_nil, Nat.zero_add]
    exact hbytes.trans hbooks
  · simp only [if_neg hnew]
    exact hbytes.trans haccounted

/-- A frame that was taken is still accounted for, so its bytes can be given back. -/
theorem sound_account (h : Sound t) {channel : ℕ} {queue : List OutboundFrame}
    {frame : OutboundFrame} {now : ℕ}
    (hsocket : t.worker = .serving ⟨channel, queue, .taken frame⟩) :
    Sound (account ⟨channel, queue, .taken frame⟩ frame now t) := by
  obtain ⟨-, -, hroom, haccounted⟩ := h.served _ hsocket
  have hheld : t.runtime.outboundBytes = frame.bytes.length + frameTotal queue := haccounted
  have hbudget := h.budget
  have hrest : t.runtime.outboundBytes - frame.bytes.length = frameTotal queue := by omega
  unfold account
  rw [if_neg (by omega)]
  split
  · exact sound_serving h hsocket rfl rfl rfl hroom hrest
      (show t.runtime.outboundBytes - frame.bytes.length ≤ _ by omega)
  · exact sound_serving h hsocket rfl rfl rfl hroom hrest
      (show t.runtime.outboundBytes - frame.bytes.length ≤ _ by omega)

/-- A frame that finds room is counted as it is queued. -/
theorem sound_queued (h : Sound t) {socket : Serving} {trafficClass : TrafficClass} {data : Bytes}
    {now : ℕ} (hsocket : t.worker = .serving socket) (hready : t.runtime.browserReady = true)
    (hroom : socket.queue.length < t.config.queueItems)
    (hbudget : t.runtime.outboundBytes +
      (encodePacket t.runtime.epoch ((t.runtime.nextSequence + 1) % 2 ^ 64) trafficClass
        data).length ≤ t.config.queueBytes) : Sound (queued socket trafficClass data now t) := by
  obtain ⟨-, -, -, haccounted⟩ := h.served _ hsocket
  refine sound_serving h hsocket rfl rfl rfl ?_ ?_ hbudget
  · simp only [List.length_append, List.length_singleton]
    omega
  · unfold Accounted at *
    cases hwork : socket.work with
    | draining dropped => exact absurd hready (by simp only [hwork] at haccounted; simp [haccounted])
    | idle =>
      simp only [hwork, frameTotal_append, frameTotal_cons, frameTotal_nil] at *
      omega
    | taken frame =>
      simp only [hwork, frameTotal_append, frameTotal_cons, frameTotal_nil] at *
      omega
    | writing frame lookedAt =>
      simp only [hwork, frameTotal_append, frameTotal_cons, frameTotal_nil] at *
      omega

/-- A connection that is lost gives all its bytes back. -/
theorem sound_disconnect (h : Sound t) {socket : Serving} (hsocket : t.worker = .serving socket)
    (log : List Entry) : Sound (disconnect { t with log := log }) := by
  refine sound_away h nofun nofun rfl rfl ?_ nofun
  intro hstarting
  exact not_gone hsocket (h.starting hstarting).2

/-- A frame that was written is taken out of the count, whether or not the write succeeded. -/
theorem sound_wrote (h : Sound t) {channel : ℕ} {queue : List OutboundFrame}
    {frame : OutboundFrame} {lookedAt : ℕ} {whole : Bool}
    (hsocket : t.worker = .serving ⟨channel, queue, .writing frame lookedAt⟩) :
    Sound (wrote ⟨channel, queue, .writing frame lookedAt⟩ frame lookedAt whole t) := by
  obtain ⟨-, -, hroom, haccounted⟩ := h.served _ hsocket
  unfold wrote
  split
  · exact sound_serving h hsocket rfl rfl rfl hroom haccounted h.budget
  · exact sound_disconnect h hsocket _

/-- A transport that has stopped has given all bytes back. -/
theorem sound_finish (h : Sound t) (hstop : t.exclusive = some .stopping) : Sound (finish t) := by
  refine sound_away h nofun ?_ rfl rfl ?_ (fun _ => .inr rfl)
  · show (if t.runtime.state = .up then TransportState.down else t.runtime.state) ≠ .up
    split
    · exact nofun
    · assumption
  · rw [hstop]
    exact nofun

/-- A start that is done, in either way, keeps the transport sound. -/
theorem sound_started (h : Sound t) {failure : Option String}
    (hstarting : t.exclusive = some .starting) : Sound (startDone failure t) := by
  obtain ⟨hstate, hgone⟩ := h.starting hstarting
  have hnone : ∀ socket, t.worker ≠ .serving socket := fun socket hsocket => not_gone hsocket hgone
  obtain ⟨hnot, hsender, hbytes⟩ := h.away hnone
  cases failure with
  | none =>
    refine ⟨h.whole, nofun, ?_, nofun, fun _ => ⟨hnot, hsender, hbytes⟩, h.budget⟩
    intro hcan
    have hcan' : t.runtime.state.canStart = true := hcan
    rw [hstate] at hcan'
    exact absurd hcan' Bool.false_ne_true
  | some code =>
    exact ⟨h.whole, nofun, fun _ => hgone, fun socket hsocket => absurd hsocket (hnone socket),
      fun _ => ⟨nofun, hsender, hbytes⟩, h.budget⟩

/-- A start begins where no socket is served. -/
theorem sound_starting (h : Sound t) (hcan : t.runtime.state.canStart = true) :
    Sound { t with
      runtime := { t.runtime with state := .starting }
      exclusive := some .starting } := by
  have hgone := h.startable hcan
  have hnone : ∀ socket, t.worker ≠ .serving socket := fun socket hsocket => not_gone hsocket hgone
  obtain ⟨-, hsender, hbytes⟩ := h.away hnone
  exact ⟨h.whole, fun _ => ⟨rfl, hgone⟩, nofun, fun socket hsocket => absurd hsocket (hnone socket),
    fun _ => ⟨nofun, hsender, hbytes⟩, h.budget⟩

/-- A stop that is done keeps the transport sound. -/
theorem sound_stopped (h : Sound t) : Sound (stopDone t) where
  whole := h.whole
  starting := nofun
  startable _ := .inl rfl
  served := nofun
  away _ := ⟨nofun, rfl, rfl⟩
  budget := Nat.zero_le _

/-- The lock and the task agree after every move, one case for each. -/
theorem sound_move {t' : SoundTransport} (hmove : Move t t') (h : Sound t) : Sound t' := by
  cases hmove with
  | note r halike => exact sound_note h halike
  | starting hcan => exact sound_starting h hcan
  | started failure hstarting => exact sound_started h hstarting
  | stopping hfree =>
    exact ⟨h.whole, nofun, h.startable, h.served, h.away, h.budget⟩
  | stopped hgone => exact sound_stopped h
  | queued socket trafficClass data now hsocket hready hmtu hroom hbudget =>
    exact sound_queued h hsocket hready hroom hbudget
  | serve hconnected =>
    have hnone : ∀ socket, t.worker ≠ .serving socket := by
      intro socket hsocket
      rw [hconnected] at hsocket
      cases hsocket
    have hbytes := (h.away hnone).2.2
    refine ⟨h.whole, ?_, nofun, ?_, fun hnot => absurd rfl (hnot _), h.budget⟩
    · intro hstarting
      have hgone := (h.starting hstarting).2
      rw [hconnected] at hgone
      rcases hgone with hgone | hgone <;> cases hgone
    · intro socket hsocket
      obtain rfl := Worker.serving.inj hsocket
      exact ⟨rfl, rfl, Nat.zero_le _, hbytes⟩
  | take channel frame rest hsocket =>
    obtain ⟨-, -, hroom, haccounted⟩ := h.served _ hsocket
    exact sound_serving h hsocket rfl rfl rfl (Nat.le_of_succ_le hroom) haccounted h.budget
  | account channel queue frame now hsocket => exact sound_account h hsocket
  | wrote channel queue frame lookedAt whole hsocket => exact sound_wrote h hsocket
  | receive channel queue encoded full hsocket => exact sound_receive h hsocket
  | lost channel queue hsocket => exact sound_disconnect h hsocket t.log
  | drainOne channel frame rest dropped hsocket =>
    obtain ⟨-, -, hroom, hbooks, hready⟩ := h.served _ hsocket
    have hdropped : t.runtime.outboundBytes =
        frameTotal (dropped ++ [frame]) + frameTotal rest := by
      simp only [frameTotal_append, frameTotal_cons, frameTotal_nil] at hbooks ⊢
      omega
    exact sound_serving h hsocket rfl rfl rfl (Nat.le_of_succ_le hroom) ⟨hdropped, hready⟩ h.budget
  | drained channel dropped hsocket =>
    exact sound_serving h hsocket rfl rfl rfl (Nat.zero_le _) rfl (Nat.zero_le _)
  | finish hstop hawake => exact sound_finish h hstop
  | reconnecting r halike worker hsocket hnext =>
    obtain ⟨delay, sleeping, hwas⟩ := hsocket
    have hnone : ∀ socket, t.worker ≠ .serving socket := by
      intro socket hsocket
      rw [hwas] at hsocket
      cases hsocket
    have hnot : ¬Gone t.worker := by
      rw [hwas]
      rintro (hgone | hgone) <;> cases hgone
    obtain ⟨hdown, hsender, hbytes⟩ := h.away hnone
    refine sound_away h ?_ (fun hup => hdown (halike.state.symm.trans hup))
      (halike.sender.trans hsender) (halike.outboundBytes.trans hbytes)
      (fun hstarting => hnot (h.starting hstarting).2)
      (fun hcan => absurd (h.startable (halike.state ▸ hcan)) hnot)
    intro socket hsocket
    rcases hnext with hnext | ⟨d, s, hnext⟩ <;> rw [hnext] at hsocket <;> cases hsocket

end Moves

/-- The lock and the task agree after every run. -/
theorem sound_after (config : SoundConfig) (actions : List Action) : Sound (after config actions) :=
  invariant_after (sound_made config) (fun _ _ hmove h => sound_move hmove h) actions

/-- No step changes the configuration. -/
theorem config_move {t t' : SoundTransport} (hmove : Move t t') : t'.config = t.config := by
  cases hmove with
  | started failure hstarting => cases failure <;> rfl
  | account channel queue frame now hsocket =>
    unfold account
    split
    · rfl
    · split <;> rfl
  | wrote channel queue frame lookedAt whole hsocket =>
    unfold wrote
    split <;> rfl
  | _ => rfl

/-- Nor does a run. -/
@[simp] theorem config_after (config : SoundConfig) (actions : List Action) :
    (after config actions).config = config :=
  invariant_after (I := fun t => t.config = config) rfl
    (fun _ _ hmove h => (config_move hmove).trans h) actions

section Sends

@[simp] theorem encodePacket_length (epoch sequence : ℕ) (trafficClass : TrafficClass)
    (data : Bytes) :
    (encodePacket epoch sequence trafficClass data).length = headerBytes + data.length := by
  simp only [encodePacket, fwavMagic, headerBytes, List.length_append, List.length_cons,
    List.length_nil, writeWord_length, List.length_replicate]

/-- Frames that wait in the queue of the socket being served. -/
def waiting (t : SoundTransport) : ℕ :=
  match t.worker with
  | .serving socket => socket.queue.length
  | _ => 0

/-- A frame joins the channel of the worker that serves it, if fewer wait than there may. -/
theorem trySend_served {t : SoundTransport} {socket : Serving} (frame : OutboundFrame)
    (hsocket : t.worker = .serving socket) :
    trySend socket.channel frame t =
      if waiting t < t.config.queueItems then
        some (.serving { socket with queue := socket.queue ++ [frame] })
      else none := by
  simp only [trySend, waiting, hsocket, true_and]

/-- The caller of an up transport pushes to the queue of the socket being served. -/
theorem Sound.socket {t : SoundTransport} (h : Sound t) (hup : t.runtime.state = .up) :
    ∃ socket, t.worker = .serving socket ∧ t.runtime.sender = some socket.channel := by
  by_contra hnone
  push Not at hnone
  have haway : ∀ socket, t.worker ≠ .serving socket := by
    intro socket hsocket
    exact hnone socket hsocket (h.served socket hsocket).2.1
  exact (h.away haway).1 hup

/-- A frame has room. -/
def HasRoom (data : Bytes) (t : SoundTransport) : Prop :=
  t.runtime.outboundBytes + (headerBytes + data.length) ≤ t.config.queueBytes ∧
    waiting t < t.config.queueItems

/-- A send that fails leaves the queue, the sequence and what happened alone. -/
structure Declined (t t' : SoundTransport) : Prop where
  runtime : Alike t.runtime t'.runtime
  worker : t'.worker = t.worker
  log : t'.log = t.log

/-- Where nothing happens a send is declined without a trace. -/
theorem Declined.same (t : SoundTransport) : Declined t t := ⟨Alike.refl _, rfl, rfl⟩

/-- A packet for which there is room is queued. -/
theorem enqueue_room {t : SoundTransport} {socket : Serving} (data : Bytes)
    (trafficClass : TrafficClass) (now : ℕ) (hsocket : t.worker = .serving socket)
    (hroom : HasRoom data t) : (enqueue socket.channel data trafficClass now t).1 = .ok data.length := by
  obtain ⟨hbytes, hitems⟩ := hroom
  unfold enqueue
  simp only [encodePacket_length]
  rw [if_neg (by omega), trySend_served _ hsocket, if_pos hitems]

/-- A packet for which there is none is declined, and for another reason than a lost connection. -/
theorem enqueue_full {t : SoundTransport} {socket : Serving} (data : Bytes)
    (trafficClass : TrafficClass) (now : ℕ) (hsocket : t.worker = .serving socket)
    (hroom : ¬HasRoom data t) :
    ∃ code, code ≠ "sound bridge is disconnected" ∧
      (enqueue socket.channel data trafficClass now t).1 = .error (.sendFailed code) ∧
      Declined t (enqueue socket.channel data trafficClass now t).2 := by
  unfold enqueue
  simp only [encodePacket_length]
  split
  · exact ⟨_, by decide, rfl, alike_overflow _ _, rfl, rfl⟩
  · next hbytes =>
    have hitems : ¬waiting t < t.config.queueItems := by
      intro hitems
      exact hroom ⟨by omega, hitems⟩
    rw [trySend_served _ hsocket, if_neg hitems]
    refine ⟨_, by decide, rfl, ⟨rfl, rfl, rfl, rfl, rfl, rfl, rfl, ?_⟩, rfl, rfl⟩
    exact Nat.add_sub_cancel _ _

/-- The peer is connected if its transport is up and its browser is ready. -/
theorem connected_iff {addr : String} {t : SoundTransport} :
    connectionState addr t = .connected ↔
      addr = t.config.peerAddr ∧ t.runtime.state = .up ∧ t.runtime.browserReady = true := by
  unfold connectionState
  split
  · next haddr => exact iff_of_false nofun (fun h => haddr h.1)
  · next haddr =>
    split
    · next harmed => exact iff_of_true rfl ⟨not_not.mp haddr, harmed⟩
    · next harmed => split <;> exact iff_of_false nofun (fun h => harmed h.2)

/-- A packet is sent to a connected peer if it fits. -/
theorem sendClassified_granted {t : SoundTransport} (h : Sound t) {addr : String} {data : Bytes}
    (trafficClass : TrafficClass) (now : ℕ) (hconnected : connectionState addr t = .connected)
    (hmtu : data.length ≤ t.config.mtu) (hroom : HasRoom data t) :
    (sendClassified addr data trafficClass now t).1 = .ok data.length := by
  obtain ⟨haddr, hup, hready⟩ := connected_iff.mp hconnected
  obtain ⟨socket, hsocket, hsender⟩ := h.socket hup
  unfold sendClassified
  rw [if_neg (not_not.mpr haddr), if_neg (not_lt.mpr hmtu), if_neg (not_not.mpr hup),
    if_neg (by rw [hready]; exact Bool.true_eq_false.mp), hsender]
  exact enqueue_room data trafficClass now hsocket hroom

/-- Every other packet is declined with the reason that comes first. -/
theorem sendClassified_declined {t : SoundTransport} (h : Sound t) {addr : String} {data : Bytes}
    (trafficClass : TrafficClass) (now : ℕ)
    (hnot : ¬(connectionState addr t = .connected ∧ data.length ≤ t.config.mtu ∧ HasRoom data t)) :
    ∃ error, error ≠ .sendFailed "sound bridge is disconnected" ∧
      (sendClassified addr data trafficClass now t).1 = .error error ∧
      Declined t (sendClassified addr data trafficClass now t).2 := by
  rw [connected_iff] at hnot
  unfold sendClassified
  split
  · exact ⟨.invalidAddress _, nofun, rfl, Declined.same t⟩
  · next haddr =>
    split
    · exact ⟨.mtuExceeded _ _, nofun, rfl, Declined.same t⟩
    · next hmtu =>
      split
      · exact ⟨.notStarted, nofun, rfl, Declined.same t⟩
      · next hup =>
        obtain ⟨socket, hsocket, hsender⟩ := h.socket (not_not.mp hup)
        split
        · exact ⟨_, by decide, rfl, alike_reject _ _, rfl, rfl⟩
        · next hready =>
          rw [hsender]
          have hroom : ¬HasRoom data t := fun hroom => hnot
            ⟨⟨not_not.mp haddr, not_not.mp hup, Bool.eq_true_of_not_eq_false hready⟩,
              not_lt.mp hmtu, hroom⟩
          obtain ⟨code, hcode, herror, hdeclined⟩ :=
            enqueue_full data trafficClass now hsocket hroom
          exact ⟨_, fun heq => hcode (TransportError.sendFailed.inj heq), herror, hdeclined⟩

end Sends

/-- After every run the lock is whole, the bytes reserved are within the budget and
are those of the frames that wait, were just taken or are being dropped for a new
epoch, and the queue is no longer than it may be. -/
theorem budget_kept (config : SoundConfig) (actions : List Action) :
    (after config actions).poisoned = false ∧
      (after config actions).runtime.outboundBytes ≤ config.queueBytes ∧
      (∀ socket, (after config actions).worker = .serving socket →
        socket.queue.length ≤ config.queueItems ∧
          Accounted (after config actions).runtime socket) ∧
      ((∀ socket, (after config actions).worker ≠ .serving socket) →
        (after config actions).runtime.outboundBytes = 0) := by
  have h := sound_after config actions
  have hbudget := h.budget
  rw [config_after] at hbudget
  refine ⟨h.whole, hbudget, ?_, fun hnone => (h.away hnone).2.2⟩
  intro socket hsocket
  obtain ⟨-, -, hroom, haccounted⟩ := h.served socket hsocket
  rw [config_after] at hroom
  exact ⟨hroom, haccounted⟩

/-- After every run a send succeeds exactly when the address is said to be connected,
the packet is no larger than it may be and its frame has room. One that fails leaves
the queue, the sequence and what happened alone, and none finds the transport up
without a queue to push to. -/
theorem send_exact (config : SoundConfig) (actions : List Action) (addr : String) (data : Bytes)
    (trafficClass : TrafficClass) (now : ℕ) :
    ((sendClassified addr data trafficClass now (after config actions)).1 = .ok data.length ↔
      connectionState addr (after config actions) = .connected ∧ data.length ≤ config.mtu ∧
        HasRoom data (after config actions)) ∧
    ((sendClassified addr data trafficClass now (after config actions)).1 ≠ .ok data.length →
      Declined (after config actions)
        (sendClassified addr data trafficClass now (after config actions)).2) ∧
    (sendClassified addr data trafficClass now (after config actions)).1 ≠
      .error (.sendFailed "sound bridge is disconnected") := by
  have h := sound_after config actions
  have hconfig := config_after config actions
  generalize after config actions = t at *
  subst hconfig
  by_cases hgranted : connectionState addr t = .connected ∧ data.length ≤ t.config.mtu ∧
      HasRoom data t
  · obtain ⟨hconnected, hmtu, hroom⟩ := hgranted
    have hok := sendClassified_granted h trafficClass now hconnected hmtu hroom
    rw [hok]
    exact ⟨iff_of_true rfl ⟨hconnected, hmtu, hroom⟩, fun hne => absurd rfl hne, nofun⟩
  · obtain ⟨error, hother, herror, hdeclined⟩ := sendClassified_declined h trafficClass now hgranted
    rw [herror]
    refine ⟨iff_of_false nofun hgranted, fun _ => hdeclined, ?_⟩
    intro heq
    exact hother (Except.error.inj heq)

end Fipwave.TransportBudget
