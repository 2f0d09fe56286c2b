import Fipwave.FipsTransport

/-!
# Moves of the sound transport

Every action of a caller or of the task does one of a few things to the
transport. The moves say what changes and under which guard; the invariants of
the transport are derived from them.
-/

namespace Fipwave.TransportMoves

open ByteWords FwavProtocol FipsTransport

/-- Two contents of the lock that differ at most in counters and the last error. -/
structure Alike (r r' : Runtime) : Prop where
  state : r'.state = r.state
  browserReady : r'.browserReady = r.browserReady
  readinessProof : r'.readinessProof = r.readinessProof
  epoch : r'.epoch = r.epoch
  nextSequence : r'.nextSequence = r.nextSequence
  highestReceivedSequence : r'.highestReceivedSequence = r.highestReceivedSequence
  sender : r'.sender = r.sender
  outboundBytes : r'.outboundBytes = r.outboundBytes

theorem Alike.refl (r : Runtime) : Alike r r := ⟨rfl, rfl, rfl, rfl, rfl, rfl, rfl, rfl⟩

theorem alike_reject (code : String) (r : Runtime) : Alike r (reject code r) :=
  ⟨rfl, rfl, rfl, rfl, rfl, rfl, rfl, rfl⟩

theorem alike_overflow (code : String) (r : Runtime) : Alike r (overflow code r) :=
  ⟨rfl, rfl, rfl, rfl, rfl, rfl, rfl, rfl⟩

/-- What a frame of the bridge does. -/
inductive Injects (mtu : ℕ) (r : Runtime) : Injected → Prop
  /-- It changes counters at most. -/
  | noted (accepted : Bool) (r' : Runtime) (halike : Alike r r') : Injects mtu r ⟨accepted, r', none⟩
  /-- It begins a later epoch. -/
  | reset (epoch : ℕ) (hlater : r.epoch < epoch) (hfits : epoch < 2 ^ 32) :
      Injects mtu r ⟨true, { r with
        epoch := epoch
        nextSequence := 0
        highestReceivedSequence := none
        browserReady := false
        readinessProof := none
        counters := {}
        lastError := none }, some (.reset epoch)⟩
  /-- It arms the transport with a proof that stands. -/
  | armed (proof : Bytes) (hlength : proof.length = acousticReadinessProofBytes)
      (hstands : proofStands proof = true) :
      Injects mtu r ⟨true, { r with readinessProof := some proof, browserReady := true },
        some (.armed r.epoch proof)⟩
  /-- It disarms the transport with the capability of the proof. -/
  | disarmed (proof : Bytes) (hproof : r.readinessProof = some proof) :
      Injects mtu r ⟨true, { r with readinessProof := none, browserReady := false },
        some (.disarmed (sliceAt proof 48 16))⟩
  /-- It carries a packet that is not a replay, while the transport is armed. -/
  | delivered (sequence : ℕ) (data : Bytes) (hready : r.browserReady = true)
      (hmtu : data.length ≤ mtu)
      (hlater : ∀ highest, r.highestReceivedSequence = some highest → highest < sequence) :
      Injects mtu r ⟨true, { r with
        highestReceivedSequence := some sequence
        counters := { r.counters with
          rxPackets := r.counters.rxPackets + 1
          rxBytes := r.counters.rxBytes + data.length } }, some (.delivered r.epoch sequence data)⟩

section Frames

variable {mtu : ℕ} {r : Runtime}

/-- A frame that is refused leaves a note. -/
theorem injects_refuse (code : String) : Injects mtu r (refuse code r) :=
  .noted false _ (alike_reject code r)

/-- A RESET begins the epoch it names, or is refused. -/
theorem injects_reset (field sequence payloadLength : ℕ) {epoch : ℕ} (hfits : epoch < 2 ^ 32) :
    Injects mtu r (injectReset field epoch sequence payloadLength r) := by
  unfold injectReset
  split
  · exact injects_refuse _
  · next hvalid =>
    have hlater : r.epoch < epoch := by omega
    exact .reset epoch hlater hfits

/-- An ARM brings a proof in, or is refused. -/
theorem injects_arm (payload : Bytes) : Injects mtu r (injectArm payload r) := by
  unfold injectArm
  split
  · exact injects_refuse _
  · next hlength =>
    split
    · exact injects_refuse _
    · next hstands =>
      exact .armed payload (not_not.mp hlength) (Bool.eq_true_of_not_eq_false hstands)

/-- A DISARM takes the proof away, or is refused. -/
theorem injects_disarm (payload : Bytes) : Injects mtu r (injectDisarm payload r) := by
  unfold injectDisarm
  split
  · exact injects_refuse _
  · next hvalid =>
    have hmatch := (not_or.mp hvalid).2
    cases hproof : r.readinessProof with
    | none =>
      rw [hproof] at hmatch
      exact absurd rfl hmatch
    | some proof =>
      have hcapability : sliceAt proof 48 16 = payload := by
        rw [hproof] at hmatch
        simpa using hmatch
      rw [← hcapability]
      exact .disarmed proof hproof

/-- A control frame of the current epoch does what its type says. -/
theorem injects_control (kind field epoch sequence : ℕ) (payload : Bytes) :
    Injects mtu r (injectControl kind field epoch sequence payload r) := by
  unfold injectControl
  split
  · exact injects_refuse _
  · split
    · exact injects_arm payload
    · exact injects_disarm payload

/-- The answer to a packet leaves a note. -/
theorem injects_admission (field epoch sequence : ℕ) (payload : Bytes) :
    Injects mtu r (injectAdmission field epoch sequence payload r) := by
  unfold injectAdmission
  split
  · exact injects_refuse _
  · split
    · apply Injects.noted
      split
      · exact ⟨rfl, rfl, rfl, rfl, rfl, rfl, rfl, rfl⟩
      · exact Alike.refl r
    · split
      · exact .noted true _ (alike_reject _ r)
      · exact injects_refuse _

/-- A packet is delivered above all others, or is refused. -/
theorem injects_packet (full : Bool) (kind field epoch sequence : ℕ) (data : Bytes) :
    Injects mtu r (injectPacket mtu full kind field epoch sequence data r) := by
  unfold injectPacket
  split
  · exact injects_refuse _
  · next hkind =>
    split
    · exact injects_refuse _
    · next harmed =>
      split
      · exact injects_refuse _
      · next hreplay =>
        split
        · exact injects_refuse _
        · have hready : r.browserReady = true := by
            by_contra hnot
            exact harmed (.inr (.inl (Bool.eq_false_of_not_eq_true hnot)))
          have hepoch : r.epoch = epoch := by
            by_contra hnot
            exact harmed (.inr (.inr hnot))
          have hmtu : data.length ≤ mtu := by omega
          have hlater : ∀ highest, r.highestReceivedSequence = some highest → highest < sequence := by
            intro highest hhighest
            rw [hhighest] at hreplay
            simpa using hreplay
          rw [← hepoch]
          exact .delivered sequence data hready hmtu hlater

/-- A frame of the bridge does one of these things, whatever its bytes are. -/
theorem injects_inbound (full : Bool) (encoded : Bytes) :
    Injects mtu r (injectInbound mtu full encoded r) := by
  unfold injectInbound
  split
  · exact injects_refuse _
  · dsimp only
    split
    · exact injects_reset _ _ _ (wordAt_lt encoded 12 4)
    · split
      · exact injects_control _ _ _ _ _
      · split
        · exact injects_admission _ _ _ _
        · exact injects_packet _ _ _ _ _ _

end Frames

/-- The task is gone. -/
def Gone (worker : Worker) : Prop := worker = .absent ∨ worker = .ended

/-- A packet is queued. -/
def queued (socket : Serving) (trafficClass : TrafficClass) (data : Bytes) (now : ℕ)
    (t : SoundTransport) : SoundTransport :=
  let sequence := (t.runtime.nextSequence + 1) % 2 ^ 64
  let frame := encodePacket t.runtime.epoch sequence trafficClass data
  { t with
    worker := .serving { socket with queue := socket.queue ++ [⟨frame, now⟩] }
    runtime := { t.runtime with
      outboundBytes := t.runtime.outboundBytes + frame.length
      nextSequence := sequence
      counters := { t.runtime.counters with
        txPackets := t.runtime.counters.txPackets + 1
        txBytes := t.runtime.counters.txBytes + data.length } }
    log := t.log ++ [.queued t.runtime.epoch sequence trafficClass data now] }

/-- What a step does to a transport. -/
inductive Move (t : SoundTransport) : SoundTransport → Prop
  /-- Counters change at most. -/
  | note (r : Runtime) (halike : Alike t.runtime r) : Move t { t with runtime := r }
  /-- A start begins. -/
  | starting (hcan : t.runtime.state.canStart = true) : Move t
      { t with runtime := { t.runtime with state := .starting }, exclusive := some .starting }
  /-- A start ends. -/
  | started (failure : Option String) (hstarting : t.exclusive = some .starting) :
      Move t (startDone failure t)
  /-- A stop begins. -/
  | stopping (hfree : t.exclusive = none) : Move t (stopAsync t)
  /-- A stop ends. -/
  | stopped (hgone : Gone t.worker) : Move t (stopDone t)
  /-- A packet is queued. -/
  | queued (socket : Serving) (trafficClass : TrafficClass) (data : Bytes) (now : ℕ)
      (hsocket : t.worker = .serving socket) (hready : t.runtime.browserReady = true)
      (hmtu : data.length ≤ t.config.mtu) (hroom : socket.queue.length < t.config.queueItems)
      (hbudget : t.runtime.outboundBytes +
        (encodePacket t.runtime.epoch ((t.runtime.nextSequence + 1) % 2 ^ 64) trafficClass
          data).length ≤ t.config.queueBytes) :
      Move t (queued socket trafficClass data now t)
  /-- A socket is served. -/
  | serve (hconnected : t.worker = .connected) : Move t (serve t)
  /-- A frame is taken from the queue. -/
  | take (channel : ℕ) (frame : OutboundFrame) (rest : List OutboundFrame)
      (hsocket : t.worker = .serving ⟨channel, frame :: rest, .idle⟩) :
      Move t { t with worker := .serving ⟨channel, rest, .taken frame⟩ }
  /-- Its bytes are given back. -/
  | account (channel : ℕ) (queue : List OutboundFrame) (frame : OutboundFrame) (now : ℕ)
      (hsocket : t.worker = .serving ⟨channel, queue, .taken frame⟩) :
      Move t (account ⟨channel, queue, .taken frame⟩ frame now t)
  /-- It is handed to the socket. -/
  | wrote (channel : ℕ) (queue : List OutboundFrame) (frame : OutboundFrame) (lookedAt : ℕ)
      (whole : Bool) (hsocket : t.worker = .serving ⟨channel, queue, .writing frame lookedAt⟩) :
      Move t (wrote ⟨channel, queue, .writing frame lookedAt⟩ frame lookedAt whole t)
  /-- A frame of the bridge arrives. -/
  | receive (channel : ℕ) (queue : List OutboundFrame) (encoded : Bytes) (full : Bool)
      (hsocket : t.worker = .serving ⟨channel, queue, .idle⟩) :
      Move t (receive ⟨channel, queue, .idle⟩ encoded full t)
  /-- The socket is lost. -/
  | lost (channel : ℕ) (queue : List OutboundFrame)
      (hsocket : t.worker = .serving ⟨channel, queue, .idle⟩) : Move t (disconnect t)
  /-- A frame of an epoch that is over leaves the queue. -/
  | drainOne (channel : ℕ) (frame : OutboundFrame) (rest dropped : List OutboundFrame)
      (hsocket : t.worker = .serving ⟨channel, frame :: rest, .draining dropped⟩) :
      Move t { t with worker := .serving ⟨channel, rest, .draining (dropped ++ [frame])⟩ }
  /-- The queue is empty. -/
  | drained (channel : ℕ) (dropped : List OutboundFrame)
      (hsocket : t.worker = .serving ⟨channel, [], .draining dropped⟩) : Move t
      { t with
        runtime := { t.runtime with outboundBytes := 0 }
        worker := .serving ⟨channel, [], .idle⟩ }
  /-- The task ends. -/
  | finish (hstop : t.exclusive = some .stopping)
      (hawake : t.worker ≠ .connected ∧ ¬Gone t.worker) : Move t (finish t)
  /-- The task waits before it connects again, or tries. -/
  | reconnecting (r : Runtime) (halike : Alike t.runtime r) (worker : Worker)
      (hsocket : ∃ delay sleeping, t.worker = .reconnecting delay sleeping)
      (hnext : worker = .connected ∨ ∃ delay sleeping, worker = .reconnecting delay sleeping) :
      Move t { t with runtime := r, worker := worker }

section Steps

variable {t : SoundTransport}

/-- To stay as it is is a move. -/
theorem move_same : Move t t := .note t.runtime (Alike.refl _)

/-- A packet that may be sent is queued, declined or finds the connection lost, by one move. -/
theorem move_enqueue {channel : ℕ} (data : Bytes) (trafficClass : TrafficClass) (now : ℕ)
    (hmtu : data.length ≤ t.config.mtu) (hready : t.runtime.browserReady = true) :
    Move t (enqueue channel data trafficClass now t).2 := by
  unfold enqueue
  dsimp only
  split
  · exact .note _ (alike_overflow _ _)
  · next hbudget =>
    split
    · refine .note _ ⟨rfl, rfl, rfl, rfl, rfl, rfl, rfl, ?_⟩
      exact Nat.add_sub_cancel _ _
    · next worker hpush =>
      unfold trySend at hpush
      split at hpush
      · next socket hsocket =>
        split at hpush
        · next hroom =>
          rw [← Option.some.inj hpush]
          exact .queued socket trafficClass data now hsocket hready hmtu hroom.2 (by omega)
        · cases hpush
      · cases hpush

/-- A call that sends makes one move. -/
theorem move_sendClassified (addr : String) (data : Bytes) (trafficClass : TrafficClass) (now : ℕ) :
    Move t (sendClassified addr data trafficClass now t).2 := by
  unfold sendClassified
  split
  · exact move_same
  · split
    · exact move_same
    · next hmtu =>
      split
      · exact move_same
      · split
        · exact .note _ (alike_reject _ _)
        · next hready =>
          split
          · exact .note _ (alike_reject _ _)
          · exact move_enqueue data trafficClass now (not_lt.mp hmtu)
              (Bool.eq_true_of_not_eq_false hready)

/-- Every step of a task is one move. -/
theorem move_taskStep (action : TaskAction) : Move t (taskStep t action) := by
  unfold taskStep
  split
  · next hsocket => exact .serve hsocket
  · next hsocket => exact .take _ _ _ hsocket
  · next hsocket => exact .account _ _ _ _ hsocket
  · next hsocket => exact .wrote _ _ _ _ _ hsocket
  · next hsocket => exact .receive _ _ _ _ hsocket
  · exact .note _ (alike_reject _ _)
  · next hsocket => exact .lost _ _ hsocket
  · next hsocket => exact .drainOne _ _ _ _ hsocket
  · next hsocket => exact .drained _ _ hsocket
  · next hsocket =>
    split
    · next hstop =>
      refine .finish hstop ?_
      rw [hsocket]
      exact ⟨nofun, fun hgone => by rcases hgone with h | h <;> cases h⟩
    · exact move_same
  · next hsocket =>
    split
    · next hstop =>
      refine .finish hstop ?_
      rw [hsocket]
      exact ⟨nofun, fun hgone => by rcases hgone with h | h <;> cases h⟩
    · exact move_same
  · next hsocket =>
    exact .reconnecting t.runtime (Alike.refl _) .connected ⟨_, _, hsocket⟩ (.inl rfl)
  · next delay hsocket =>
    have hnext : ∃ d s, Worker.reconnecting delay true = .reconnecting d s := ⟨_, _, rfl⟩
    have halike : Alike t.runtime { t.runtime with lastError := some "sound_bridge_reconnecting" } :=
      ⟨rfl, rfl, rfl, rfl, rfl, rfl, rfl, rfl⟩
    exact .reconnecting _ halike _ ⟨_, _, hsocket⟩ (.inr hnext)
  · next hsocket =>
    exact .reconnecting t.runtime (Alike.refl _) _ ⟨_, _, hsocket⟩ (.inr ⟨_, _, rfl⟩)
  · exact move_same

/-- Every step is a move. -/
theorem move_step (action : Action) : Move t (step t action) := by
  unfold step
  split
  · exact move_same
  · split
    · unfold startAsync
      split
      · exact move_same
      · next hcan => exact .starting (Bool.eq_true_of_not_eq_false hcan)
    · next hstarting => exact .started _ hstarting
    · next hfree => exact .stopping hfree
    · split
      · next hgone => exact .stopped hgone
      · exact move_same
    · exact .note _ (alike_reject _ _)
    · exact move_sendClassified _ _ _ _
    · exact move_taskStep _
    · exact move_same

end Steps

/-- What holds of a new transport and is kept by every move holds after every run. -/
theorem invariant_after {config : SoundConfig} {I : SoundTransport → Prop} (hmade : I (made config))
    (hmove : ∀ t t', Move t t' → I t → I t') (actions : List Action) : I (after config actions) :=
  TransitionRun.invariant step (fun t action h => hmove t _ (move_step action) h) hmade actions

end Fipwave.TransportMoves
