import Fipwave.TransportBudget
import Fipwave.WorkerTrust

/-!
# The bridge and its worker together

The worker's transport connects to the bridge and hears the messages that were
sent on its connection, one after the other, at any time. In every state in
which it has heard them all, it holds a connection to the peer only if the
acoustic session of the bridge is ready, in the same epoch and with the same
proof. The converse holds as long as no proof is taken while a reset waits for
its report.
-/

namespace Fipwave.WorkerLink

open ByteWords FwavProtocol BridgePorts BridgeMethods BridgeServer BrowserReadiness FipsTransport
  SentMessages WorkerNews WorkerTrust TransitionRun
open BridgeMoves (benchBridge)

/-- A connection of the worker to the bridge. -/
structure Link where
  /-- Socket of the bridge. -/
  socket : ℕ
  /-- Messages the worker has heard. -/
  heard : ℕ
  deriving DecidableEq, Repr

/-- The bridge and the transport of its worker. -/
structure Joint where
  /-- The bridge. -/
  world : World
  /-- The transport. -/
  transport : SoundTransport
  /-- The connection of the transport's task. -/
  link : Option Link := none

/-- What happens next. -/
inductive JointEvent where
  /-- Something happens at the bridge. -/
  | bridge (event : Event)
  /-- The transport's attempt to connect succeeds. -/
  | connect
  /-- The task takes the next message; the channel to FIPS may be full. -/
  | hear (full : Bool)
  /-- The transport does something else. -/
  | transport (action : Action)

/-- The task has a connection. -/
def linked (t : SoundTransport) : Bool :=
  match t.worker with
  | .connected => true
  | .serving _ => true
  | _ => false

/-- Actions that neither connect the transport nor bring it a message. -/
def alone : Action → Bool
  | .startDone none => false
  | .task (.connectDone true) => false
  | .task (.receive _ _) => false
  | .task .receiveOther => false
  | _ => true

/-- The action by which an attempt to connect succeeds. -/
def connecting (t : SoundTransport) : Action :=
  if t.exclusive = some .starting then .startDone none else .task (.connectDone true)

/-- The task waits for a frame of either side. -/
def receptive (t : SoundTransport) : Bool :=
  !t.poisoned && match t.worker with
    | .serving ⟨_, _, .idle⟩ => true
    | _ => false

/-- The transport takes a message of the bridge. -/
def take (full : Bool) (message : Outbound) (t : SoundTransport) : SoundTransport :=
  match arrival message with
  | .binary encoded => FipsTransport.step t (.task (.receive encoded full))
  | .other => FipsTransport.step t (.task .receiveOther)
  | .nothing => t

/-- The next message of the connection. -/
def next (j : Joint) : Option (Link × Outbound) := do
  let link ← j.link
  let message ← (j.world.state.ports.sockets link.socket).sent[link.heard]?
  return (link, message)

/-- One step of the bridge, the transport or both; what does not apply does nothing. -/
def jointStep (options : BridgeServerOptions) (j : Joint) : JointEvent → Joint
  | .bridge event => { j with world := BridgeServer.step options j.world event }
  | .connect =>
    let t := FipsTransport.step j.transport (connecting j.transport)
    if t.worker = .connected ∧ j.transport.worker ≠ .connected then
      ⟨BridgeServer.step options j.world .connectFips, t, some ⟨j.world.state.ports.socketCount, 0⟩⟩
    else j
  | .hear full =>
    match next j with
    | none => j
    | some (link, message) =>
      if receptive j.transport then
        { j with
          transport := take full message j.transport
          link := some { link with heard := link.heard + 1 } }
      else j
  | .transport action =>
    if alone action then
      let t := FipsTransport.step j.transport action
      { j with transport := t, link := if linked t then j.link else none }
    else j

/-- A bridge that begins to listen, and a transport that was just made. -/
def start (options : BridgeServerOptions) (config : SoundConfig) : Joint :=
  ⟨createBridgeServer options, made config, none⟩

section Transport

variable {t : SoundTransport}

/-- What the transport does alone: the epoch stays, no connection comes about, and a task that
goes on serving has learned nothing. -/
structure Onward (t t' : SoundTransport) : Prop where
  /-- The epoch stays. -/
  epoch : t'.runtime.epoch = t.runtime.epoch
  /-- No connection comes about. -/
  connected : t'.worker = .connected → t.worker = .connected
  /-- A task that serves has just begun to, or has learned nothing. -/
  serving : ∀ socket, t'.worker = .serving socket →
    t.worker = .connected ∧ earOf t'.runtime = fresh t.runtime.epoch ∨
      (∃ before, t.worker = .serving before) ∧ earOf t'.runtime = earOf t.runtime

/-- The task stays as it is, or goes on serving; what it has learned stays. -/
theorem onward_of_same {t' : SoundTransport} (hear : earOf t'.runtime = earOf t.runtime)
    (hworker : t'.worker = t.worker ∨
      (∃ before, t.worker = .serving before) ∧ ∃ after, t'.worker = .serving after) :
    Onward t t' := by
  refine ⟨congrArg Ear.epoch hear, fun hconnected => ?_, fun socket hsocket => .inr ⟨?_, hear⟩⟩
  · rcases hworker with heq | ⟨-, after, hafter⟩
    · exact heq ▸ hconnected
    · rw [hafter] at hconnected
      cases hconnected
  · rcases hworker with heq | ⟨hbefore, -⟩
    · exact ⟨socket, heq ▸ hsocket⟩
    · exact hbefore

/-- The task has no connection afterwards. -/
theorem onward_away {t' : SoundTransport} (hepoch : t'.runtime.epoch = t.runtime.epoch)
    (hnone : linked t' = false) : Onward t t' := by
  unfold linked at hnone
  refine ⟨hepoch, fun hconnected => ?_, fun socket hsocket => ?_⟩
  · rw [hconnected] at hnone
    cases hnone
  · rw [hsocket] at hnone
    cases hnone

/-- A packet that is queued stays on the connection, or ends one that is lost. -/
theorem onward_enqueue {channel : ℕ} (data : Bytes) (trafficClass : TrafficClass) (now : ℕ) :
    Onward t (FipsTransport.enqueue channel data trafficClass now t).2 := by
  unfold FipsTransport.enqueue
  dsimp only
  split
  · exact onward_of_same rfl (.inl rfl)
  · split
    · exact onward_of_same rfl (.inl rfl)
    · next worker hpush =>
      unfold FipsTransport.trySend at hpush
      split at hpush
      · next socket hsocket =>
        split at hpush
        · rw [← Option.some.inj hpush]
          exact onward_of_same rfl (.inr ⟨⟨socket, hsocket⟩, _, rfl⟩)
        · cases hpush
      · cases hpush

/-- A call that sends goes on with the connection there is. -/
theorem onward_sendClassified (addr : String) (data : Bytes) (trafficClass : TrafficClass)
    (now : ℕ) : Onward t (sendClassified addr data trafficClass now t).2 := by
  have hsame : Onward t t := onward_of_same rfl (.inl rfl)
  unfold sendClassified
  split
  · exact hsame
  · split
    · exact hsame
    · split
      · exact hsame
      · split
        · exact onward_of_same rfl (.inl rfl)
        · split
          · exact onward_of_same rfl (.inl rfl)
          · exact onward_enqueue data trafficClass now

/-- The tasks of the transport go on with the connection, but for the one that opens it. -/
theorem onward_taskStep (action : TaskAction) (h : alone (.task action) = true) :
    Onward t (taskStep t action) := by
  have hsame : Onward t t := onward_of_same rfl (.inl rfl)
  unfold taskStep
  split
  · next hconnected =>
    refine ⟨rfl, fun _ => hconnected, fun socket _ => .inl ⟨hconnected, rfl⟩⟩
  · next hsocket => exact onward_of_same rfl (.inr ⟨⟨_, hsocket⟩, _, rfl⟩)
  · next channel queue frame now hsocket =>
    unfold account
    split
    · exact onward_of_same rfl (.inl rfl)
    · dsimp only
      split
      · exact onward_of_same rfl (.inr ⟨⟨_, hsocket⟩, _, rfl⟩)
      · exact onward_of_same rfl (.inr ⟨⟨_, hsocket⟩, _, rfl⟩)
  · next channel queue frame lookedAt whole hsocket =>
    unfold wrote
    dsimp only
    split
    · exact onward_of_same rfl (.inr ⟨⟨_, hsocket⟩, _, rfl⟩)
    · exact onward_away rfl rfl
  · cases h
  · cases h
  · exact onward_away rfl rfl
  · next hsocket => exact onward_of_same rfl (.inr ⟨⟨_, hsocket⟩, _, rfl⟩)
  · next hsocket => exact onward_of_same rfl (.inr ⟨⟨_, hsocket⟩, _, rfl⟩)
  · split
    · exact onward_away rfl rfl
    · exact hsame
  · split
    · exact onward_away rfl rfl
    · exact hsame
  · cases h
  · exact onward_away rfl rfl
  · exact onward_away rfl rfl
  · exact hsame

/-- What the transport does alone. -/
theorem onward_step (action : Action) (h : alone action = true) :
    Onward t (FipsTransport.step t action) := by
  have hsame : Onward t t := onward_of_same rfl (.inl rfl)
  unfold FipsTransport.step
  split
  · exact hsame
  · split
    · unfold startAsync
      split
      · exact hsame
      · exact onward_of_same rfl (.inl rfl)
    · next failure _ =>
      cases failure with
      | none => cases h
      | some code => exact onward_of_same rfl (.inl rfl)
    · exact onward_of_same rfl (.inl rfl)
    · split
      · exact onward_away rfl rfl
      · exact hsame
    · exact onward_of_same rfl (.inl rfl)
    · exact onward_sendClassified _ _ _ _
    · exact onward_taskStep _ h
    · exact hsame

/-- A connection that is there after a step was there before. -/
theorem Onward.linked {t' : SoundTransport} (h : Onward t t') (hlinked : linked t' = true) :
    WorkerLink.linked t = true := by
  unfold WorkerLink.linked at hlinked
  split at hlinked
  · next hconnected =>
    unfold WorkerLink.linked
    rw [h.connected hconnected]
  · next socket hsocket =>
    unfold WorkerLink.linked
    rcases h.serving socket hsocket with ⟨hconnected, -⟩ | ⟨⟨before, hbefore⟩, -⟩
    · rw [hconnected]
    · rw [hbefore]
  · cases hlinked

/-- Epochs of the transport have four bytes. -/
theorem epoch_step (action : Action) (h : t.runtime.epoch < 2 ^ 32) :
    (FipsTransport.step t action).runtime.epoch < 2 ^ 32 := by
  have hmove : TransportMoves.Move t (FipsTransport.step t action) :=
    TransportMoves.move_step action
  generalize FipsTransport.step t action = t' at hmove
  cases hmove with
  | note r halike => rw [halike.epoch]; exact h
  | started failure hstarting =>
    cases failure with
    | none => exact h
    | some code => exact h
  | account channel queue frame now hsocket =>
    unfold account
    split
    · exact h
    · dsimp only
      split <;> exact h
  | wrote channel queue frame lookedAt whole hsocket =>
    unfold wrote
    dsimp only
    split <;> exact h
  | receive channel queue encoded full hsocket =>
    have hinjects : TransportMoves.Injects t.config.mtu t.runtime
        (injectInbound t.config.mtu full encoded t.runtime) :=
      TransportMoves.injects_inbound full encoded
    unfold FipsTransport.receive
    dsimp only
    generalize injectInbound t.config.mtu full encoded t.runtime = injected at hinjects
    cases hinjects with
    | noted accepted r' halike => rw [halike.epoch]; exact h
    | reset epoch hlater hfits => exact hfits
    | _ => exact h
  | reconnecting r halike worker hsocket hnext => exact (congrArg (· < 2 ^ 32) halike.epoch).mpr h
  | _ => exact h

/-- A task of a transport that is whole is a step of the task alone. -/
theorem step_task (hwhole : t.poisoned = false) (action : TaskAction) :
    FipsTransport.step t (.task action) = taskStep t action := by
  unfold FipsTransport.step
  rw [hwhole, if_neg Bool.false_ne_true]
  cases t.exclusive with
  | none => rfl
  | some exclusive => cases exclusive <;> rfl

/-- A worker that waits takes in the next binary message. -/
theorem taskStep_receive {channel : ℕ} {queue : List OutboundFrame}
    (hsocket : t.worker = .serving ⟨channel, queue, .idle⟩) (encoded : Bytes) (full : Bool) :
    taskStep t (.receive encoded full) =
      FipsTransport.receive ⟨channel, queue, .idle⟩ encoded full t := by
  unfold taskStep
  rw [hsocket]
  cases queue <;> rfl

/-- A text is rejected by the worker. -/
theorem taskStep_receiveOther {channel : ℕ} {queue : List OutboundFrame}
    (hsocket : t.worker = .serving ⟨channel, queue, .idle⟩) : taskStep t .receiveOther =
      { t with runtime := reject "sound_binary_frame_required" t.runtime } := by
  unfold taskStep
  rw [hsocket]
  cases queue <;> rfl

/-- A task that takes a message goes on serving and has heard it. -/
theorem take_hears (hup : t.runtime.state = .up) (full : Bool) (message : Outbound)
    (h : receptive t = true) : (∃ socket, (take full message t).worker = .serving socket) ∧
      earOf (take full message t).runtime = (earOf t.runtime).hear message := by
  unfold receptive at h
  rw [Bool.and_eq_true, Bool.not_eq_true'] at h
  obtain ⟨hwhole, hidle⟩ := h
  split at hidle
  · next channel queue hsocket =>
    rw [← earOf_heard hup message]
    unfold take heard
    cases arrival message with
    | binary encoded =>
      dsimp only
      rw [step_task hwhole, taskStep_receive hsocket]
      exact ⟨⟨_, rfl⟩, rfl⟩
    | other =>
      dsimp only
      rw [step_task hwhole, taskStep_receiveOther hsocket]
      exact ⟨⟨_, hsocket⟩, rfl⟩
    | nothing => exact ⟨⟨_, hsocket⟩, rfl⟩
  · cases hidle

end Transport

/-- The endpoints of the bridge. -/
def Joint.ports (j : Joint) : Ports := j.world.state.ports

/-- What the task of a transport knows of its connection to a bridge. -/
structure Follows (p : Ports) (t : SoundTransport) (link : Link) : Prop where
  /-- The connection is one of the bridge. -/
  placed : link.socket < p.socketCount
  /-- Nothing was heard that was not sent. -/
  heard : link.heard ≤ (p.sockets link.socket).sent.length
  /-- A task that does not serve yet has heard nothing. -/
  connected : t.worker = .connected → link.heard = 0
  /-- A task that serves has learned what it has heard. -/
  serving : ∀ socket, t.worker = .serving socket → ∃ epoch < 2 ^ 32,
    earOf t.runtime = (fresh epoch).listen ((p.sockets link.socket).sent.take link.heard)

/-- What the bridge and its worker agree on. -/
structure Good (options : BridgeServerOptions) (j : Joint) : Prop where
  /-- The bridge is sound. -/
  bridge : BridgeMoves.Sound options False j.world
  /-- What a worker has learned is true. -/
  trusted : Trusted j.ports
  /-- The transport is sound. -/
  transport : TransportBudget.Sound j.transport
  /-- Its epoch fits. -/
  epoch : j.transport.runtime.epoch < 2 ^ 32
  /-- A task with a connection has one to the bridge. -/
  linked : linked j.transport = true → j.link ≠ none
  /-- Its task knows what it has heard. -/
  follows : ∀ link, j.link = some link → Follows j.ports j.transport link

section Steps

variable {options : BridgeServerOptions} {j : Joint}

/-- What a bridge sends later leaves what was heard as it is. -/
theorem Follows.grown {p q : Ports} {t : SoundTransport} {link : Link} (h : Follows p t link)
    (hgrown : Grown p q) : Follows q t link := by
  have hprefix := hgrown.sent link.socket h.placed
  obtain ⟨more, hmore⟩ := hprefix
  refine ⟨h.placed.trans_le hgrown.count, ?_, h.connected, fun socket hsocket => ?_⟩
  · rw [← hmore, List.length_append]
    exact h.heard.trans (Nat.le_add_right _ _)
  · obtain ⟨epoch, hlt, hear⟩ := h.serving socket hsocket
    refine ⟨epoch, hlt, ?_⟩
    rw [hear, ← hmore, List.take_append_of_le_length h.heard]

/-- Whatever the bridge does, what the worker has heard is still the beginning of what it was
sent. -/
theorem good_bridge (h : Good options j) (event : Event) :
    Good options (jointStep options j (.bridge event)) where
  bridge := (BridgeMoves.evolves_step event h.bridge).sound
  trusted := h.trusted.step event h.bridge
  transport := h.transport
  epoch := h.epoch
  linked := h.linked
  follows link hlink := (h.follows link hlink).grown (grown_step event h.bridge)

/-- A worker that comes in takes a place of its own. -/
theorem count_connectFips (options : PortOptions) (p : Ports) :
    p.socketCount < (connectFips options p).socketCount := by
  unfold connectFips
  split
  · exact Nat.lt_succ_self _
  · have hrelayed : Relayed (admitFips p) (flushPacketQueue options .browserToFips (admitFips p)) :=
      relayed_flushToFips options (admitFips p)
    have hcount : (flushPacketQueue options .browserToFips (admitFips p)).socketCount =
        p.socketCount + 1 := hrelayed.socketCount
    dsimp only
    split
    · have hgrown := (grown_notify true
        (flushPacketQueue options .browserToFips (admitFips p))).count
      omega
    · omega

/-- The two ends of a new connection begin with the same epoch. -/
theorem good_connect (h : Good options j) : Good options (jointStep options j .connect) := by
  unfold jointStep
  dsimp only
  split
  · next hconnects =>
    have hplaced : j.ports.socketCount <
        (BridgeServer.step options j.world .connectFips).state.ports.socketCount :=
      count_connectFips options.ports j.ports
    refine ⟨(BridgeMoves.evolves_step .connectFips h.bridge).sound, h.trusted.step _ h.bridge,
      TransportBudget.sound_move (TransportMoves.move_step _) h.transport, epoch_step _ h.epoch,
      fun _ => by simp, fun link hlink => ?_⟩
    obtain rfl := Option.some.inj hlink
    refine ⟨hplaced, Nat.zero_le _, fun _ => rfl, fun socket hsocket => ?_⟩
    have hsocket' : (FipsTransport.step j.transport (connecting j.transport)).worker =
      .serving socket := hsocket
    rw [hconnects.1] at hsocket'
    cases hsocket'
  · exact h

/-- The next message for the worker is the first one of its stream it has not heard. -/
theorem next_eq_some {link : Link} {message : Outbound} (h : next j = some (link, message)) :
    j.link = some link ∧ (j.ports.sockets link.socket).sent[link.heard]? = some message := by
  unfold next at h
  rw [Option.bind_eq_bind, Option.bind_eq_some_iff] at h
  obtain ⟨known, hknown, hrest⟩ := h
  rw [Option.bind_eq_bind, Option.bind_eq_some_iff] at hrest
  obtain ⟨heard, hheard, hpair⟩ := hrest
  obtain ⟨rfl, rfl⟩ := Prod.mk.inj (Option.some.inj hpair)
  exact ⟨hknown, hheard⟩

/-- Taking a message is one step of the transport at most. -/
theorem take_eq (full : Bool) (message : Outbound) (t : SoundTransport) :
    take full message t = t ∨ ∃ action, take full message t = FipsTransport.step t action := by
  unfold take
  cases arrival message with
  | binary encoded => exact .inr ⟨_, rfl⟩
  | other => exact .inr ⟨_, rfl⟩
  | nothing => exact .inl rfl

/-- A message that is heard is added to what was heard. -/
theorem Follows.take {p : Ports} {t : SoundTransport} {link : Link} {message : Outbound}
    (h : Follows p t link) (hsound : TransportBudget.Sound t) (full : Bool)
    (hreceptive : receptive t = true)
    (hmessage : (p.sockets link.socket).sent[link.heard]? = some message) :
    Follows p (WorkerLink.take full message t) { link with heard := link.heard + 1 } := by
  have hserving : ∃ socket, t.worker = .serving socket := by
    unfold receptive at hreceptive
    rw [Bool.and_eq_true] at hreceptive
    have hidle := hreceptive.2
    split at hidle
    · next channel queue hsocket => exact ⟨_, hsocket⟩
    · cases hidle
  obtain ⟨socket, hsocket⟩ := hserving
  have hup := (hsound.served socket hsocket).1
  obtain ⟨⟨after, hafter⟩, hear⟩ := take_hears hup full message hreceptive
  obtain ⟨epoch, hlt, hbefore⟩ := h.serving socket hsocket
  refine ⟨h.placed, ?_, fun hconnected => ?_, fun _ _ => ⟨epoch, hlt, ?_⟩⟩
  · have hlength := (List.getElem?_eq_some_iff.mp hmessage).1
    exact hlength
  · rw [hafter] at hconnected
    cases hconnected
  · dsimp only
    rw [hear, hbefore, List.take_add_one, hmessage, Option.toList_some, listen_concat]

/-- A message that is heard teaches the worker what the bridge said with it. -/
theorem good_hear (h : Good options j) (full : Bool) :
    Good options (jointStep options j (.hear full)) := by
  unfold jointStep
  cases hnext : next j with
  | none => exact h
  | some found =>
    obtain ⟨link, message⟩ := found
    obtain ⟨hlink, hmessage⟩ := next_eq_some hnext
    dsimp only
    split
    · next hreceptive =>
      have hfollows := (h.follows link hlink).take h.transport full hreceptive hmessage
      have hkept : TransportBudget.Sound (take full message j.transport) ∧
          (take full message j.transport).runtime.epoch < 2 ^ 32 := by
        rcases take_eq full message j.transport with heq | ⟨action, heq⟩
        · rw [heq]
          exact ⟨h.transport, h.epoch⟩
        · rw [heq]
          exact ⟨TransportBudget.sound_move (TransportMoves.move_step action) h.transport,
            epoch_step action h.epoch⟩
      refine ⟨h.bridge, h.trusted, hkept.1, hkept.2, fun _ => by simp, fun other hother => ?_⟩
      rw [← Option.some.inj hother]
      exact hfollows
    · exact h

/-- What the transport does alone leaves it what it knows of its connection. -/
theorem Follows.onward {p : Ports} {t t' : SoundTransport} {link : Link} (h : Follows p t link)
    (honward : Onward t t') (hepoch : t.runtime.epoch < 2 ^ 32) : Follows p t' link := by
  refine ⟨h.placed, h.heard, fun hconnected => h.connected (honward.connected hconnected), ?_⟩
  intro socket hsocket
  rcases honward.serving socket hsocket with ⟨hconnected, hear⟩ | ⟨⟨before, hbefore⟩, hear⟩
  · refine ⟨t.runtime.epoch, hepoch, ?_⟩
    rw [hear, h.connected hconnected, List.take_zero, listen_nil]
  · rw [hear]
    exact h.serving before hbefore

/-- A step of the transport alone teaches the worker nothing. -/
theorem good_transport (h : Good options j) (action : Action) :
    Good options (jointStep options j (.transport action)) := by
  unfold jointStep
  dsimp only
  split
  · next halone =>
    have honward : Onward j.transport (FipsTransport.step j.transport action) :=
      onward_step action halone
    refine ⟨h.bridge, h.trusted,
      TransportBudget.sound_move (TransportMoves.move_step action) h.transport,
      epoch_step action h.epoch, fun hlinked => ?_, fun link hlink => ?_⟩
    · have hlinked' : linked (FipsTransport.step j.transport action) = true := hlinked
      dsimp only
      rw [if_pos hlinked']
      exact h.linked (honward.linked hlinked')
    · dsimp only at hlink
      split at hlink
      · exact (h.follows link hlink).onward honward h.epoch
      · cases hlink
  · exact h

/-- Whatever happens, the bridge and its worker agree. -/
theorem good_step (h : Good options j) (event : JointEvent) :
    Good options (jointStep options j event) := by
  cases event with
  | bridge event => exact good_bridge h event
  | connect => exact good_connect h
  | hear full => exact good_hear h full
  | transport action => exact good_transport h action

/-- At the beginning there is no connection and nothing to be heard. -/
theorem good_start (options : BridgeServerOptions) (config : SoundConfig) :
    Good options (start options config) where
  bridge := BridgeMoves.sound_createBridgeServer
  trusted := trusted_createBridgeServer options
  transport := TransportBudget.sound_made config
  epoch := Nat.one_lt_two_pow (by decide)
  linked := nofun
  follows := nofun

end Steps

/-- The task serves a connection that still owns the FIPS endpoint and is open there, and has heard
everything that was sent on it. -/
def CaughtUp (j : Joint) : Prop :=
  (∃ socket, j.transport.worker = .serving socket) ∧ ∃ link, j.link = some link ∧
    openOwner j.ports.fipsOwner j.ports = some link.socket ∧
    link.heard = (j.ports.sockets link.socket).sent.length

/-- A worker that has heard everything has learned what the stream of its socket says. -/
theorem Good.learned {options : BridgeServerOptions} {j : Joint} (h : Good options j)
    (hcaught : CaughtUp j) : j.transport.runtime.state = .up ∧ ∃ k epoch, epoch < 2 ^ 32 ∧
      j.ports.fipsOwner = some k ∧ isOpen k j.ports = true ∧
      earOf j.transport.runtime = learned epoch (j.ports.sockets k) := by
  obtain ⟨⟨socket, hsocket⟩, link, hlink, howner, hheard⟩ := hcaught
  obtain ⟨epoch, hlt, hear⟩ := (h.follows link hlink).serving socket hsocket
  obtain ⟨hfips, hopen⟩ := openOwner_eq_some.mp howner
  refine ⟨(h.transport.served socket hsocket).1, link.socket, epoch, hlt, hfips, hopen, ?_⟩
  rw [hear, hheard, List.take_length]
  rfl

/-- A transport that is up is connected exactly if its ear takes the browser for ready. -/
theorem connected_iff {t : SoundTransport} (hup : t.runtime.state = .up) :
    connectionState t.config.peerAddr t = .connected ↔ (earOf t.runtime).ready = true := by
  unfold connectionState
  rw [if_neg (not_not.mpr rfl)]
  constructor
  · intro h
    split at h
    · next hready => exact hready.2
    · split at h <;> cases h
  · intro hready
    rw [if_pos ⟨hup, hready⟩]

/-- So a worker that is connected and has heard everything agrees with the bridge. -/
theorem Good.told {options : BridgeServerOptions} {j : Joint} (h : Good options j)
    (hcaught : CaughtUp j)
    (hconnected : connectionState j.transport.config.peerAddr j.transport = .connected) :
    j.ports.acousticReady = true ∧
      j.transport.runtime.readinessProof = j.ports.acousticReadinessProof ∧
      j.transport.runtime.epoch = j.ports.epoch := by
  obtain ⟨hup, k, epoch, hlt, howner, hopen, hear⟩ := h.learned hcaught
  have hready := (connected_iff hup).mp hconnected
  rw [hear] at hready
  have htrue := h.trusted.told k howner hopen epoch hlt hready
  rw [← hear] at htrue
  exact htrue

/-- A bridge and the transport of its worker after a run. -/
def after (options : BridgeServerOptions) (config : SoundConfig) (events : List JointEvent) : Joint :=
  run (jointStep options) (start options config) events

/-- In every run of a bridge and the transport of its worker: if the transport says that it is
connected to its peer, on an open connection that owns the FIPS endpoint and with everything heard
that was sent on it, then the acoustic session of the bridge is ready, with the proof and in the
epoch the transport has. -/
theorem connected_is_true (options : BridgeServerOptions) (config : SoundConfig)
    (events : List JointEvent) (hcaught : CaughtUp (after options config events))
    (hconnected : connectionState (after options config events).transport.config.peerAddr
      (after options config events).transport = .connected) :
    (after options config events).ports.acousticReady = true ∧
      (after options config events).transport.runtime.readinessProof =
        (after options config events).ports.acousticReadinessProof ∧
      (after options config events).transport.runtime.epoch =
        (after options config events).ports.epoch := by
  have hgood : Good options (after options config events) :=
    invariant (jointStep options) (I := Good options) (fun _ event h => good_step h event)
      (good_start options config) events
  exact hgood.told hcaught hconnected

/-- Settings of a worker of the bench. -/
def benchWorker : SoundConfig :=
  ⟨"ws://127.0.0.1:4310/bridge/fips", "sound-a", 1357, 2, 4096, 5000⟩

/-- A worker connects, a browser becomes ready, and the worker hears of it. -/
def benchEvents : List JointEvent :=
  [.transport .start, .connect, .transport (.task .serve), .bridge .connectBrowser,
    .bridge (.resume 0 .resolved), .bridge (.receive 1 (benchHello 1 0)), .bridge (.process 1),
    .bridge (.receive 1 (benchReady 1 0)), .bridge (.process 1), .hear false]

theorem caughtUp_bench : CaughtUp (after benchBridge benchWorker benchEvents) :=
  ⟨⟨⟨0, [], .idle⟩, by decide +kernel⟩, ⟨0, 1⟩, by decide +kernel, by decide +kernel,
    by decide +kernel⟩

/-- On the bench it is connected, and the bridge is ready with the same proof and epoch. -/
theorem connected_is_true_bench :
    (after benchBridge benchWorker benchEvents).ports.acousticReady = true ∧
      (after benchBridge benchWorker benchEvents).transport.runtime.readinessProof =
        (after benchBridge benchWorker benchEvents).ports.acousticReadinessProof ∧
      (after benchBridge benchWorker benchEvents).transport.runtime.epoch =
        (after benchBridge benchWorker benchEvents).ports.epoch :=
  connected_is_true benchBridge benchWorker benchEvents caughtUp_bench (by decide +kernel)

/-- No proof is taken while a reset waits for its report. -/
def InPeace (j : Joint) : JointEvent → Prop
  | .bridge event => ArmsInPeace j.world event
  | _ => True

instance (j : Joint) (event : JointEvent) : Decidable (InPeace j event) :=
  match event with
  | .bridge event => inferInstanceAs (Decidable (ArmsInPeace j.world event))
  | .connect => .isTrue trivial
  | .hear _ => .isTrue trivial
  | .transport _ => .isTrue trivial

/-- Every step keeps the worker aware of the epoch, where proofs are taken in peace. -/
theorem aware_step {options : BridgeServerOptions} {j : Joint} (event : JointEvent)
    (hgood : Good options j) (h : Aware j.ports) (hpeace : InPeace j event) :
    Aware (jointStep options j event).ports := by
  cases event with
  | bridge event => exact h.step event hgood.bridge hpeace
  | connect =>
    have hnobody : ArmsInPeace j.world .connectFips := nofun
    have haware := h.step .connectFips hgood.bridge hnobody
    unfold jointStep
    dsimp only
    split
    · exact haware
    · exact h
  | hear full =>
    unfold jointStep
    cases next j with
    | none => exact h
    | some found =>
      dsimp only
      split <;> exact h
  | transport action =>
    unfold jointStep
    dsimp only
    split <;> exact h

/-- In every run in which no proof is taken while a reset waits for its report: a transport on an
open connection that owns the FIPS endpoint, and with everything heard that was sent on it, says
that it is connected to its peer exactly if the acoustic session of the bridge is ready and in the
epoch of the transport. -/
theorem connected_iff_ready (options : BridgeServerOptions) (config : SoundConfig)
    (events : List JointEvent)
    (hpeace : Along (jointStep options) InPeace (start options config) events)
    (hcaught : CaughtUp (after options config events)) :
    connectionState (after options config events).transport.config.peerAddr
        (after options config events).transport = .connected ↔
      (after options config events).ports.acousticReady = true ∧
        (after options config events).transport.runtime.epoch =
          (after options config events).ports.epoch := by
  have hboth : Good options (after options config events) ∧
      Aware (after options config events).ports := by
    refine invariant_along (jointStep options)
      (I := fun j => Good options j ∧ Aware j.ports) ?_
      ⟨good_start options config, aware_createBridgeServer options⟩ hpeace
    intro j event hquiet ⟨hgood, haware⟩
    exact ⟨good_step hgood event, aware_step event hgood haware hquiet⟩
  obtain ⟨hgood, haware⟩ := hboth
  constructor
  · intro hconnected
    obtain ⟨hready, -, hepoch⟩ := hgood.told hcaught hconnected
    exact ⟨hready, hepoch⟩
  · intro ⟨hready, hepoch⟩
    obtain ⟨hup, k, epoch, hlt, howner, hopen, hear⟩ := hgood.learned hcaught
    rw [connected_iff hup]
    have hsame := congrArg Ear.epoch hear
    rw [hear]
    exact haware.synced.heard hready k howner hopen epoch hlt (hsame.symm.trans hepoch)

/-- On the bench the worker is connected and the bridge is ready. -/
theorem connected_iff_ready_bench :
    connectionState (after benchBridge benchWorker benchEvents).transport.config.peerAddr
        (after benchBridge benchWorker benchEvents).transport = .connected ↔
      (after benchBridge benchWorker benchEvents).ports.acousticReady = true ∧
        (after benchBridge benchWorker benchEvents).transport.runtime.epoch =
          (after benchBridge benchWorker benchEvents).ports.epoch :=
  connected_iff_ready benchBridge benchWorker benchEvents (by decide +kernel) caughtUp_bench

end Fipwave.WorkerLink
