import Fipwave.BridgeRuns

/-!
# What readiness rests on

A few moves concern the readiness of the acoustic session: connections come
and go, a proof makes the session ready, readiness ends, capabilities are
issued and resets are made and announced. All other moves leave alone what
readiness rests on, up to sockets that begin to close and resets that end.
-/

namespace Fipwave.ReadinessMoves

open ByteWords FwavProtocol QualificationSession BridgePorts BridgeMethods BridgeServer PortMoves
  BridgeMoves

/-- The frame the message of a handler carries, with its socket. -/
def carried : Actor → Option (ℕ × FwavFrame)
  | .handler socket message =>
    if message.isBinary then
      match decodeFrame message.rawData with
      | .ok frame => some (socket, frame)
      | .error _ => none
    else none
  | _ => none

/-- An actor that carries a frame has it at hand. -/
theorem carried_of_carries {a : Actor} {socket : ℕ} {frame : FwavFrame}
    (h : Carries a socket frame) : carried a = some (socket, frame) := by
  obtain ⟨rawData, rfl, hdecode⟩ := h
  simp [carried, hdecode]

/-- An actor carries one frame at most. -/
theorem carries_unique {a : Actor} {socket other : ℕ} {frame frame' : FwavFrame}
    (h : Carries a socket frame) (h' : Carries a other frame') :
    other = socket ∧ frame' = frame := by
  have heq := (carried_of_carries h').symm.trans (carried_of_carries h)
  simpa using heq

/-- The handler of a frame recovers its own connection, and only for a RESET. -/
theorem recovers_of_carries {a : Actor} {f : Ports → Ports} {socket : ℕ} {frame : FwavFrame}
    (hf : Recovers a f) (hcarries : Carries a socket frame) :
    frame.type = .reset ∧ f = modifyConnection socket (recover frame.sequence) := by
  rcases hf with ⟨⟨call, ha⟩, -⟩ | ⟨other, frame', h, hreset, rfl⟩
  · obtain ⟨rawData, ha', -⟩ := hcarries
    rw [ha] at ha'
    cases ha'
  · obtain ⟨rfl, rfl⟩ := carries_unique hcarries h
    exact ⟨hreset, rfl⟩

/-- The frame makes the session ready if its heartbeat is recent: it is a proof of the current
epoch with the unused capability of its connection, and nothing is ready. -/
def arms (socket : ℕ) (frame : FwavFrame) (p : Ports) : Bool :=
  let connection := (p.sockets socket).connection
  frame.type = .acousticReady && frame.epoch = p.epoch && !connection.mustResetBeforeUse &&
    !p.acousticReady && !connection.acousticCapabilityUsed &&
    match decodeAcousticReadinessProof frame.payload with
    | .ok proof => proof.capability = connection.acousticCapability
    | .error _ => false

/-- The kind of a control frame by which the worker learns whether the browser is ready. -/
def controlOf : Outbound → Option MessageType
  | .frame frame => if isControl frame then some frame.type else none
  | _ => none

/-- Such frames among those sent on a socket. -/
def controls (k : Socket) : List MessageType := k.sent.filterMap controlOf

/-- What readiness rests on, of a socket. -/
structure Footing where
  /-- Endpoint it serves. -/
  endpoint : Endpoint
  /-- Its close was not handled yet. -/
  attached : Bool
  /-- It has to reset first. -/
  mustResetBeforeUse : Bool
  /-- Its capability. -/
  acousticCapability : Bytes
  /-- It was used. -/
  acousticCapabilityUsed : Bool
  /-- Issue of the capability. -/
  issue : Option ℕ

/-- What readiness rests on, of a socket. -/
def footing (k : Socket) : Footing :=
  ⟨k.endpoint, k.attached, k.connection.mustResetBeforeUse, k.connection.acousticCapability,
    k.connection.acousticCapabilityUsed, k.connection.issue⟩

/-- What readiness rests on, apart from the sockets. -/
structure Ground where
  /-- Epoch. -/
  epoch : ℕ
  /-- Readiness. -/
  acousticReady : Bool
  /-- Its proof. -/
  acousticReadinessProof : Option Bytes
  /-- Owner of the browser endpoint. -/
  owner : Option ℕ
  /-- Owner of the FIPS endpoint. -/
  fipsOwner : Option ℕ
  /-- Sockets there are. -/
  socketCount : ℕ
  /-- Capabilities issued. -/
  issueCount : ℕ
  /-- Who made the session ready. -/
  armedBy : Option ℕ
  /-- Issues that made a session ready. -/
  armings : List ℕ

/-- What readiness rests on, apart from the sockets. -/
def groundOf (p : Ports) : Ground :=
  ⟨p.epoch, p.acousticReady, p.acousticReadinessProof, p.owner, p.fipsOwner, p.socketCount,
    p.issueCount, p.armedBy, p.armings⟩

/-- What readiness rests on is left alone. -/
structure Plain (p q : Ports) : Prop where
  /-- Apart from the sockets. -/
  ground : groundOf q = groundOf p
  /-- No reset begins. -/
  resets : ∀ x ∈ q.resetsUnderway, x ∈ p.resetsUnderway
  /-- Sockets are as they were. -/
  footing : ∀ k, footing (q.sockets k) = footing (p.sockets k)
  /-- No socket opens. -/
  opened : ∀ k, isOpen k q = true → isOpen k p = true
  /-- No control frame is sent as long as the queues hold packets. -/
  controls : HoldsPackets p → ∀ k, controls (q.sockets k) = controls (p.sockets k)
  /-- Packets stay packets. -/
  holds : HoldsPackets p → HoldsPackets q

section Plain

variable {p q r : Ports}

theorem Plain.refl (p : Ports) : Plain p p :=
  ⟨rfl, fun _ h => h, fun _ => rfl, fun _ h => h, fun _ _ => rfl, id⟩

theorem Plain.trans (hpq : Plain p q) (hqr : Plain q r) : Plain p r :=
  ⟨hqr.ground.trans hpq.ground, fun x h => hpq.resets x (hqr.resets x h),
    fun k => (hqr.footing k).trans (hpq.footing k), fun k h => hpq.opened k (hqr.opened k h),
    fun h k => (hqr.controls (hpq.holds h) k).trans (hpq.controls h k),
    fun h => hqr.holds (hpq.holds h)⟩

/-- A plain change leaves the ground readiness stands on, so whatever is read off it stays as it
is. -/
theorem Plain.epoch (h : Plain p q) : q.epoch = p.epoch := congrArg Ground.epoch h.ground

theorem Plain.acousticReady (h : Plain p q) : q.acousticReady = p.acousticReady :=
  congrArg Ground.acousticReady h.ground

theorem Plain.acousticReadinessProof (h : Plain p q) :
    q.acousticReadinessProof = p.acousticReadinessProof :=
  congrArg Ground.acousticReadinessProof h.ground

theorem Plain.owner (h : Plain p q) : q.owner = p.owner := congrArg Ground.owner h.ground

theorem Plain.fipsOwner (h : Plain p q) : q.fipsOwner = p.fipsOwner :=
  congrArg Ground.fipsOwner h.ground

theorem Plain.socketCount (h : Plain p q) : q.socketCount = p.socketCount :=
  congrArg Ground.socketCount h.ground

theorem Plain.issueCount (h : Plain p q) : q.issueCount = p.issueCount :=
  congrArg Ground.issueCount h.ground

theorem Plain.armedBy (h : Plain p q) : q.armedBy = p.armedBy := congrArg Ground.armedBy h.ground

theorem Plain.armings (h : Plain p q) : q.armings = p.armings := congrArg Ground.armings h.ground

/-- The footing of every socket stays as it is as well, and what is read off it. -/
theorem Plain.attached (h : Plain p q) (k : ℕ) :
    (q.sockets k).attached = (p.sockets k).attached := congrArg Footing.attached (h.footing k)

theorem Plain.endpoint (h : Plain p q) (k : ℕ) :
    (q.sockets k).endpoint = (p.sockets k).endpoint := congrArg Footing.endpoint (h.footing k)

theorem Plain.mustResetBeforeUse (h : Plain p q) (k : ℕ) :
    (q.sockets k).connection.mustResetBeforeUse = (p.sockets k).connection.mustResetBeforeUse :=
  congrArg Footing.mustResetBeforeUse (h.footing k)

theorem Plain.acousticCapability (h : Plain p q) (k : ℕ) :
    (q.sockets k).connection.acousticCapability = (p.sockets k).connection.acousticCapability :=
  congrArg Footing.acousticCapability (h.footing k)

theorem Plain.acousticCapabilityUsed (h : Plain p q) (k : ℕ) :
    (q.sockets k).connection.acousticCapabilityUsed =
      (p.sockets k).connection.acousticCapabilityUsed :=
  congrArg Footing.acousticCapabilityUsed (h.footing k)

/-- Whether a frame makes the session ready rests on nothing else. -/
theorem Plain.arms (h : Plain p q) (socket : ℕ) (frame : FwavFrame) :
    arms socket frame q = arms socket frame p := by
  simp only [ReadinessMoves.arms, h.epoch, h.acousticReady, h.mustResetBeforeUse,
    h.acousticCapability, h.acousticCapabilityUsed]

/-- Relaying packets is plain. -/
theorem plain_relayed (h : Relayed p q) : Plain p q := by
  refine ⟨?_, fun x hx => h.resetsUnderway ▸ hx, fun k => ?_, fun k hk => ?_, fun hp k => ?_,
    h.holds⟩
  · simp only [groundOf, h.epoch, h.acousticReady, h.acousticReadinessProof, h.owner, h.fipsOwner,
      h.socketCount, h.issueCount, h.armedBy, h.armings]
  · obtain ⟨frames, -, hk⟩ := h.said k
    rw [hk]
    rfl
  · obtain ⟨frames, -, heq⟩ := h.said k
    unfold isOpen at hk ⊢
    rwa [heq] at hk
  · obtain ⟨frames, hframes, hk⟩ := h.said k
    have hnone : (frames.map Outbound.frame).filterMap controlOf = [] := by
      rw [List.filterMap_eq_nil_iff]
      intro message hmessage
      obtain ⟨frame, hframe, rfl⟩ := List.mem_map.mp hmessage
      simp [controlOf, hframes hp frame hframe]
    rw [hk]
    simp only [ReadinessMoves.controls, List.filterMap_append, hnone, List.append_nil]

/-- A change of one socket that keeps what readiness rests on. -/
theorem plain_modifySocket {socket : ℕ} {f : Socket → Socket}
    (hf : ∀ k, footing (f k) = footing k ∧ controls (f k) = controls k ∧
      ((f k).readyState = .opened → k.readyState = .opened)) :
    Plain p (modifySocket socket f p) := by
  refine ⟨rfl, fun _ h => h, view_modifySocket footing (fun s => (hf s).1) socket p,
    fun k hk => ?_, fun _ => view_modifySocket controls (fun s => (hf s).2.1) socket p, id⟩
  unfold isOpen at hk ⊢
  rw [sockets_modifySocket] at hk
  simp only [decide_eq_true_eq] at hk ⊢
  split at hk
  · next heq => rw [heq]; exact (hf _).2.2 hk
  · exact hk

/-- A message that is no control frame may be sent. -/
theorem plain_send (socket : ℕ) {message : Outbound} (h : controlOf message = none) (p : Ports) :
    Plain p (send socket message p) :=
  plain_modifySocket (fun k => ⟨rfl, by simp [controls, h], id⟩)

/-- A message that is no control frame may be sent to all. -/
theorem plain_broadcast {message : Outbound} (h : controlOf message = none) (p : Ports) :
    Plain p (broadcast message p) := by
  refine ⟨rfl, fun _ h => h, view_broadcast footing (fun _ => rfl) p, fun k hk => ?_,
    fun _ => view_broadcast controls (fun s => ?_) p, id⟩
  · unfold isOpen at hk ⊢
    rwa [view_broadcast Socket.readyState (fun _ => rfl) p k] at hk
  · simp [ReadinessMoves.controls, h]

/-- A socket that is rejected only begins to close. -/
theorem plain_rejectSocket (socket : ℕ) (p : Ports) : Plain p (rejectSocket socket p) := by
  refine plain_modifySocket (fun k => ⟨rfl, rfl, fun hk => ?_⟩)
  dsimp only at hk
  split at hk
  · cases hk
  · exact hk

/-- A message of the worker is passed on, or closes the worker. -/
theorem plain_handleFipsMessage (options : PortOptions) (socket : ℕ) (message : RawMessage)
    (now : ℕ) (p : Ports) : Plain p (handleFipsMessage options socket message now p) := by
  obtain ⟨q, r, hq, hrelayed, hresult⟩ := handleFipsMessage_relayed options socket message now p
  have htaken : Plain p q := by
    rcases hq with rfl | ⟨sequence, rfl⟩
    · exact .refl q
    · exact plain_modifySocket (fun _ => ⟨rfl, rfl, id⟩)
  rcases hresult with heq | heq
  · rw [heq]
    exact htaken.trans (plain_relayed hrelayed)
  · rw [heq]
    exact (htaken.trans (plain_relayed hrelayed)).trans (plain_rejectSocket socket r)

end Plain

/-- A move that concerns readiness. -/
inductive ReadinessMove (options : PortOptions) (a : Actor) : Ports → Ports → Prop
  | greets {p : Ports} (ha : a = .greeting p.socketCount) :
      ReadinessMove options a p (connectBrowser options p)
  | joins {p : Ports} (ha : a = .environment) :
      ReadinessMove options a p (connectFips options p)
  | leavesFips {p : Ports} {socket : ℕ} (ha : a = .closure socket)
      (hendpoint : (p.sockets socket).endpoint = .fips) :
      ReadinessMove options a p (closeFips socket p)
  | leaves {p : Ports} {socket : ℕ} (ha : a = .closure socket)
      (hendpoint : (p.sockets socket).endpoint = .browser) :
      ReadinessMove options a p (closeBrowser socket p).2
  | readies {p : Ports} {socket : ℕ} {frame : FwavFrame} (h : Carries a socket frame)
      (harms : arms socket frame p = true) :
      ReadinessMove options a p (armAcousticSession socket frame.payload p)
  | disarms {p : Ports} {socket : ℕ} {frame : FwavFrame} (h : Carries a socket frame)
      (htype : frame.type = .error ∨ frame.type = .acousticDisarm) :
      ReadinessMove options a p (issueAcousticCapability options socket (disarmAcousticSession p))
  | hails {p : Ports} {socket : ℕ} {frame : FwavFrame} (h : Carries a socket frame)
      (htype : frame.type = .hello) :
      ReadinessMove options a p (issueAcousticCapability options socket p)
  | exhausts {p : Ports} {f : Ports → Ports} (hf : Recovers a f) : ReadinessMove options a p (f p)
  | resets {p : Ports} {f : Ports → Ports} (hf : Recovers a f) :
      ReadinessMove options a p (resetPorts a (disarmAcousticSession (f p)))
  | announces {p : Ports} (h : a ∈ p.resetsUnderway) :
      ReadinessMove options a p (announceReset a p)

section Moves

variable {options : PortOptions} {a : Actor} {p q : Ports}

/-- A readiness frame makes the session ready or changes nothing. -/
theorem acceptAcousticReady_cases {socket : ℕ} {frame : FwavFrame} (now : ℕ)
    (h : Takes a socket frame p) (htype : frame.type = .acousticReady) :
    leftPorts (acceptAcousticReady socket frame now p) = p ∨
      arms socket frame p = true ∧ leftPorts (acceptAcousticReady socket frame now p) =
        armAcousticSession socket frame.payload p := by
  unfold acceptAcousticReady
  split
  · exact .inl rfl
  · split
    · exact .inl rfl
    · next proof hproof =>
      dsimp only
      split
      · exact .inl rfl
      · split
        · exact .inl rfl
        · next hvalid =>
          simp only [not_or, Bool.not_eq_true, not_not] at hvalid
          split
          · next hidle =>
            have hopen : (p.sockets socket).connection.mustResetBeforeUse = false := by
              by_contra hmust
              rw [Bool.not_eq_false] at hmust
              have hreset := h.open_ hmust
              rw [htype] at hreset
              cases hreset
            refine .inr ⟨?_, rfl⟩
            rw [Bool.not_eq_true'] at hidle
            simp [arms, htype, h.epoch, hopen, hidle, hvalid.2.1, hproof, hvalid.2.2]
          · exact .inl rfl

/-- A move leaves alone what readiness rests on, or concerns it. The second are the few kinds the
proofs about readiness treat. -/
theorem plain_or (h : PortMove options a p q) : Plain p q ∨ ReadinessMove options a p q := by
  cases h with
  | greets ha => exact .inr (.greets ha)
  | joins ha => exact .inr (.joins ha)
  | receives ha hattached => exact .inl (plain_modifySocket (fun _ => ⟨rfl, rfl, id⟩))
  | notes hf =>
    refine .inl (plain_modifySocket (fun k => ⟨?_, rfl, id⟩))
    obtain ⟨hmust, hcapability, hused, hissue⟩ := hf k.connection
    simp only [footing, hmust, hcapability, hused, hissue]
  | rejects socket ha => exact .inl (plain_rejectSocket socket p)
  | leavesFips ha hattached hendpoint => exact .inr (.leavesFips ha hendpoint)
  | leaves ha hattached hendpoint => exact .inr (.leaves ha hendpoint)
  | retries ha htimer => exact .inl (plain_relayed (relayed_retry options _ p))
  | submits now ha => exact .inl (plain_handleFipsMessage options _ _ now p)
  | answers now h htype =>
    exact .inl (plain_relayed (relayed_acceptBrowserAdmission options _ _ now p))
  | readies now h htype =>
    rcases acceptAcousticReady_cases now h htype with heq | ⟨harms, heq⟩
    · rw [heq]
      exact .inl (.refl p)
    · rw [heq]
      exact .inr (.readies h.message harms)
  | disarms h htype =>
    unfold acceptAcousticDisarm
    split
    · exact .inl (.refl p)
    · split
      · exact .inl (.refl p)
      · exact .inr (.disarms h.message (.inr htype))
  | hails h htype =>
    unfold acceptHello
    split
    · exact .inl (.refl p)
    · exact .inr (.hails h.message htype)
  | takes h horder => exact .inl (plain_modifySocket (fun _ => ⟨rfl, rfl, id⟩))
  | @forwards q _ frame now hcarries htype hunderway h =>
    have hrelayed := relayed_acceptBrowserPacket options now p htype
    rw [h] at hrelayed
    exact .inl ((plain_relayed hrelayed).trans (plain_modifySocket (fun _ => ⟨rfl, rfl, id⟩)))
  | @forwardFails thrown frame now htype h =>
    have hrelayed := relayed_acceptBrowserPacket options now p htype
    rw [h] at hrelayed
    exact .inl (plain_relayed hrelayed)
  | errs h htype => exact .inr (.disarms h (.inl htype))
  | exhausts hf hepoch => exact .inr (.exhausts hf)
  | resets hf hepoch => exact .inr (.resets hf)
  | endsReset h =>
    exact .inl ⟨rfl, fun x hx => List.mem_of_mem_erase hx, fun _ => rfl, fun _ h => h,
      fun _ _ => rfl, id⟩
  | announces h => exact .inr (.announces h)
  | restarts => exact .inl (plain_modifySocket (fun _ => ⟨rfl, rfl, id⟩))
  | flushes => exact .inl (plain_relayed (relayed_flushToBrowser options p))
  | enqueues frame now => exact .inl (plain_relayed (relayed_enqueue frame now p))
  | @tells socket message h =>
    refine .inl (plain_send socket ?_ p)
    cases message <;> first | rfl | cases h
  | @broadcasts message h =>
    refine .inl (plain_broadcast ?_ p)
    cases message <;> first | rfl | cases h
  | refuses ha h =>
    exact .inl ⟨rfl, fun _ h => h, fun _ => rfl, fun _ h => h, fun _ _ => rfl, id⟩

/-- The same for a move of a bridge. -/
theorem bridge_plain_or {options : BridgeServerOptions} {a : Actor}
    {b b' : Bridge} (h : Move options False a b b') :
    Plain b.ports b'.ports ∨ ReadinessMove options.ports a b.ports b'.ports := by
  cases h with
  | ports h => exact plain_or h
  | trial => exact .inl (.refl _)
  | reads => exact .inl (.refl _)
  | plays => exact .inl (plain_broadcast rfl _)
  | results => exact .inl (plain_send _ rfl _)
  | answers => exact .inl (plain_send _ rfl _)

/-- The beginning of a method is plain. -/
theorem plain_prepares {a : Actor} {b b' : Bridge} (h : Prepares a b b') :
    Plain b.ports b'.ports := by
  cases h with
  | message socket message =>
    have htaken : Plain b.ports (modifySocket socket
        (fun k => { k with inbox := k.inbox.tail, underway := .nothing }) b.ports) :=
      plain_modifySocket (fun _ => ⟨rfl, rfl, id⟩)
    change Plain b.ports (takeMessage socket message b.ports)
    unfold takeMessage
    dsimp only
    split
    · exact htaken
    · exact htaken.trans (plain_relayed (relayed_record _ _))
  | call call => exact .refl _

end Moves

end Fipwave.ReadinessMoves
