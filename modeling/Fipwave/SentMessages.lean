import Fipwave.ReadinessMoves

/-!
# What was sent stays sent

Whatever a bridge does, the messages it has sent on a socket are followed by
more and never taken back, and a socket that was admitted is never replaced.
-/

namespace Fipwave.SentMessages

open ByteWords BridgePorts BridgeMethods BridgeServer PortMoves BridgeMoves ReadinessMoves

/-- More was sent on the sockets there are. -/
structure Grown (p q : Ports) : Prop where
  /-- Sockets stay. -/
  count : p.socketCount ≤ q.socketCount
  /-- What was sent stays sent. -/
  sent : ∀ k < p.socketCount, (p.sockets k).sent <+: (q.sockets k).sent

section Grown

variable {p q r : Ports}

theorem Grown.refl (p : Ports) : Grown p p := ⟨le_rfl, fun _ _ => List.prefix_rfl⟩

theorem Grown.trans (hpq : Grown p q) (hqr : Grown q r) : Grown p r where
  count := hpq.count.trans hqr.count
  sent k hk := (hpq.sent k hk).trans (hqr.sent k (hk.trans_le hpq.count))

/-- A change after which no socket was sent less. -/
theorem grown_of_sockets (hcount : q.socketCount = p.socketCount)
    (hsent : ∀ k, (p.sockets k).sent <+: (q.sockets k).sent) : Grown p q :=
  ⟨hcount.ge, fun k _ => hsent k⟩

/-- A change of one socket that only adds to its stream. -/
theorem grown_modifySocket {socket : ℕ} {f : Socket → Socket} (hf : ∀ k, k.sent <+: (f k).sent) :
    Grown p (modifySocket socket f p) := by
  refine grown_of_sockets rfl (fun k => ?_)
  rw [sockets_modifySocket]
  split
  · next heq =>
    rw [heq]
    exact hf _
  · exact List.prefix_rfl

/-- A change of one socket that sends nothing. -/
theorem grown_keep {socket : ℕ} {f : Socket → Socket} (hf : ∀ k, (f k).sent = k.sent) :
    Grown p (modifySocket socket f p) :=
  grown_modifySocket (fun k => by rw [hf k])

/-- A message that is sent stands at the end of the stream. -/
theorem grown_send (socket : ℕ) (message : Outbound) (p : Ports) :
    Grown p (send socket message p) :=
  grown_modifySocket (fun _ => List.prefix_append _ _)

/-- So does a message to all, on every stream. -/
theorem grown_broadcast (message : Outbound) (p : Ports) : Grown p (broadcast message p) := by
  refine grown_of_sockets rfl (fun k => ?_)
  unfold broadcast
  dsimp only
  split
  · exact List.prefix_append _ _
  · exact List.prefix_rfl

/-- Relaying packets adds to streams. -/
theorem grown_relayed (h : Relayed p q) : Grown p q := by
  refine grown_of_sockets h.socketCount (fun k => ?_)
  obtain ⟨frames, -, hk⟩ := h.said k
  rw [hk]
  exact List.prefix_append _ _

/-- The worker is told whether a browser is armed at the end of its stream. -/
theorem grown_notify (armed : Bool) (p : Ports) : Grown p (notifyFipsBrowserState armed p) := by
  unfold notifyFipsBrowserState
  split
  · exact grown_send _ _ p
  · exact .refl p

/-- Disarming tells the worker so and takes nothing back. -/
theorem grown_disarm (p : Ports) : Grown p (disarmAcousticSession p) := by
  unfold disarmAcousticSession
  split
  · exact .refl p
  · have hended : Grown p { p with acousticReady := false, armedBy := none } :=
      grown_of_sockets rfl (fun _ => List.prefix_rfl)
    have hforgets : ∀ q : Ports, Grown q { q with acousticReadinessProof := none } :=
      fun q => grown_of_sockets rfl (fun _ => List.prefix_rfl)
    exact ((hended.trans (grown_notify false _)).trans (hforgets _)).trans
      (grown_relayed (relayed_clearQueues _))

/-- A capability is issued at the end of a stream. -/
theorem grown_issue (options : PortOptions) (socket : ℕ) (p : Ports) :
    Grown p (issueAcousticCapability options socket p) := by
  have hcounted : Grown p { p with issueCount := p.issueCount + 1 } :=
    grown_of_sockets rfl (fun _ => List.prefix_rfl)
  have hgiven : ∀ q : Ports, Grown q (modifySocket socket (fun k => { k with
      connection := { k.connection with
        acousticCapability := options.randomBytes p.issueCount
        acousticCapabilityUsed := false
        issue := some p.issueCount } }) q) :=
    fun q => grown_keep (fun _ => rfl)
  have hchanged := hcounted.trans (hgiven _)
  unfold issueAcousticCapability
  dsimp only
  split
  · exact hchanged.trans (grown_send _ _ _)
  · exact hchanged

/-- A socket that is rejected is told nothing more. -/
theorem grown_rejectSocket (socket : ℕ) (p : Ports) : Grown p (rejectSocket socket p) :=
  grown_keep (fun _ => rfl)

/-- What a socket was sent stays on record after its close. -/
theorem grown_detach (socket : ℕ) (p : Ports) : Grown p (detach socket p) :=
  grown_keep (fun _ => rfl)

/-- A socket that comes in is the next one. -/
theorem grown_admit (socket : Socket) {q : Ports}
    (hsockets : q.sockets = Function.update p.sockets p.socketCount socket)
    (hcount : q.socketCount = p.socketCount + 1) : Grown p q := by
  refine ⟨by omega, fun k hk => ?_⟩
  rw [hsockets, Function.update_of_ne hk.ne]

/-- A browser that comes in begins a stream of its own. -/
theorem grown_connectBrowser (options : PortOptions) (p : Ports) :
    Grown p (connectBrowser options p) := by
  have hadmitted : Grown p (admitBrowser p) := grown_admit _ rfl rfl
  unfold connectBrowser
  split
  · exact grown_admit _ rfl rfl
  · split
    · exact hadmitted.trans (grown_relayed (relayed_flushToBrowser options _))
    · exact hadmitted

/-- A worker that comes in begins a stream of its own. -/
theorem grown_connectFips (options : PortOptions) (p : Ports) :
    Grown p (connectFips options p) := by
  have hadmitted : Grown p (admitFips p) := grown_admit _ rfl rfl
  unfold connectFips
  split
  · exact grown_admit _ rfl rfl
  · dsimp only
    have hflushed := hadmitted.trans (grown_relayed (relayed_flushToFips options _))
    split
    · exact hflushed.trans (grown_notify true _)
    · exact hflushed

/-- The close of a worker takes nothing back. -/
theorem grown_closeFips (socket : ℕ) (p : Ports) : Grown p (closeFips socket p) := by
  have hdetached := grown_detach socket p
  unfold closeFips
  dsimp only
  split
  · exact hdetached.trans (grown_of_sockets rfl (fun _ => List.prefix_rfl))
  · exact hdetached

/-- The close of a browser takes nothing back. -/
theorem grown_closeBrowser (socket : ℕ) (p : Ports) : Grown p (closeBrowser socket p).2 := by
  have hdetached := grown_detach socket p
  have hleft : ∀ q : Ports, Grown q { clearPendingBrowserAdmission q with owner := none } :=
    fun q => (grown_relayed (relayed_clearPending q)).trans
      (grown_of_sockets rfl (fun _ => List.prefix_rfl))
  have hreleased : Grown p (releaseOwner (detach socket p)) :=
    (hdetached.trans (hleft _)).trans (grown_disarm _)
  unfold closeBrowser
  dsimp only
  split
  · exact hdetached
  · split
    · exact hreleased.trans (grown_of_sockets rfl (fun _ => List.prefix_rfl))
    · split
      · exact hreleased
      · exact hreleased.trans (grown_of_sockets rfl (fun _ => List.prefix_rfl))

/-- Arming tells the worker so at the end of its stream. -/
theorem grown_arm (socket : ℕ) (payload : Bytes) (p : Ports) :
    Grown p (armAcousticSession socket payload p) := by
  have hspent : Grown p (modifyConnection socket
      (fun c => { c with acousticCapabilityUsed := true }) p) := grown_keep (fun _ => rfl)
  have hready : ∀ (q : Ports) (issues : List ℕ), Grown q { q with
      acousticReadinessProof := some payload
      acousticReady := true
      armedBy := some socket
      armings := issues } := fun _ _ => grown_of_sockets rfl (fun _ => List.prefix_rfl)
  unfold armAcousticSession
  exact (hspent.trans (hready _ _)).trans (grown_notify true _)

/-- Taking the bridge out of a state that needs a reset takes nothing back. -/
theorem grown_recovers {a : Actor} {f : Ports → Ports} (hf : Recovers a f) (p : Ports) :
    Grown p (f p) := by
  rcases hf with ⟨-, rfl⟩ | ⟨socket, frame, -, -, rfl⟩
  · exact .refl p
  · exact grown_keep (fun _ => rfl)

/-- A reset that begins sends nothing. -/
theorem sent_resetPorts (a : Actor) (p : Ports) (k : ℕ) :
    ((resetPorts a p).sockets k).sent = (p.sockets k).sent :=
  view_resetPorts Socket.sent (fun _ _ _ _ => rfl) a p k

/-- A reset is announced at the end of every stream. -/
theorem grown_announceReset (a : Actor) (p : Ports) : Grown p (announceReset a p) := by
  refine grown_of_sockets rfl (fun k => ?_)
  unfold announceReset
  dsimp only
  split
  · exact List.prefix_append _ _
  · exact List.prefix_rfl

/-- A reset takes nothing back, whatever state it finds. -/
theorem grown_recovers_reset {a : Actor} {f : Ports → Ports} (hf : Recovers a f) (p : Ports) :
    Grown p (resetPorts a (disarmAcousticSession (f p))) := by
  refine ((grown_recovers hf p).trans (grown_disarm _)).trans (grown_of_sockets rfl (fun k => ?_))
  rw [sent_resetPorts]

/-- Whatever concerns readiness, what was sent stays sent. -/
theorem grown_readinessMove {options : PortOptions} {a : Actor}
    (h : ReadinessMove options a p q) : Grown p q := by
  cases h with
  | greets => exact grown_connectBrowser options p
  | joins => exact grown_connectFips options p
  | leavesFips => exact grown_closeFips _ p
  | leaves => exact grown_closeBrowser _ p
  | readies => exact grown_arm _ _ p
  | disarms => exact (grown_disarm p).trans (grown_issue options _ _)
  | hails => exact grown_issue options _ p
  | exhausts hf => exact grown_recovers hf p
  | resets hf => exact grown_recovers_reset hf p
  | announces => exact grown_announceReset a p

/-- A message of the worker adds to the stream of the browser at most. -/
theorem grown_handleFipsMessage (options : PortOptions) (socket : ℕ) (message : RawMessage)
    (now : ℕ) (p : Ports) : Grown p (handleFipsMessage options socket message now p) := by
  obtain ⟨q, r, hq, hrelayed, hresult⟩ := handleFipsMessage_relayed options socket message now p
  have htaken : Grown p q := by
    rcases hq with rfl | ⟨sequence, rfl⟩
    · exact .refl q
    · exact grown_keep (fun _ => rfl)
  have hmoved := htaken.trans (grown_relayed hrelayed)
  rcases hresult with heq | heq
  · rw [heq]
    exact hmoved
  · rw [heq]
    exact hmoved.trans (grown_rejectSocket socket r)

/-- Whatever a bridge does to its endpoints, what was sent stays sent, one case for each move. -/
theorem grown_portMove {options : PortOptions} {a : Actor} (h : PortMove options a p q) :
    Grown p q := by
  cases h with
  | greets ha => exact grown_readinessMove (.greets ha)
  | joins ha => exact grown_readinessMove (.joins ha)
  | receives ha hattached => exact grown_keep (fun _ => rfl)
  | notes hf => exact grown_keep (fun _ => rfl)
  | rejects socket ha => exact grown_rejectSocket socket p
  | leavesFips ha hattached hendpoint => exact grown_closeFips _ p
  | leaves ha hattached hendpoint => exact grown_closeBrowser _ p
  | retries ha htimer => exact grown_relayed (relayed_retry options _ p)
  | submits now ha => exact grown_handleFipsMessage options _ _ now p
  | answers now h htype => exact grown_relayed (relayed_acceptBrowserAdmission options _ _ now p)
  | readies now h htype =>
    rcases acceptAcousticReady_cases now h htype with heq | ⟨harms, heq⟩
    · rw [heq]
      exact .refl p
    · rw [heq]
      exact grown_arm _ _ p
  | disarms h htype =>
    unfold acceptAcousticDisarm
    split
    · exact .refl p
    · split
      · exact .refl p
      · exact (grown_disarm p).trans (grown_issue options _ _)
  | hails h htype =>
    unfold acceptHello
    split
    · exact .refl p
    · exact grown_issue options _ p
  | takes h horder => exact grown_keep (fun _ => rfl)
  | @forwards q _ frame now hcarries htype hunderway h =>
    have hrelayed := relayed_acceptBrowserPacket options now p htype
    rw [h] at hrelayed
    exact (grown_relayed hrelayed).trans (grown_keep (fun _ => rfl))
  | @forwardFails thrown frame now htype h =>
    have hrelayed := relayed_acceptBrowserPacket options now p htype
    rw [h] at hrelayed
    exact grown_relayed hrelayed
  | errs h htype => exact (grown_disarm p).trans (grown_issue options _ _)
  | exhausts hf hepoch => exact grown_recovers hf p
  | resets hf hepoch => exact grown_recovers_reset hf p
  | endsReset h => exact grown_of_sockets rfl (fun _ => List.prefix_rfl)
  | announces h => exact grown_announceReset a p
  | restarts => exact grown_keep (fun _ => rfl)
  | flushes => exact grown_relayed (relayed_flushToBrowser options p)
  | enqueues frame now => exact grown_relayed (relayed_enqueue frame now p)
  | tells socket h => exact grown_send socket _ p
  | broadcasts h => exact grown_broadcast _ p
  | refuses ha h => exact grown_of_sockets rfl (fun _ => List.prefix_rfl)

end Grown

section Bridge

variable {options : BridgeServerOptions} {a : Actor} {b b' : Bridge}

/-- Every move of the bridge adds to streams. -/
theorem grown_move (h : Move options False a b b') : Grown b.ports b'.ports := by
  cases h with
  | ports h => exact grown_portMove h
  | trial => exact .refl _
  | reads => exact .refl _
  | plays encoded => exact grown_broadcast _ _
  | results socket epoch => exact grown_send socket _ _
  | answers socket epoch => exact grown_send socket _ _

/-- The beginning of a method sends nothing. -/
theorem grown_prepares (h : Prepares a b b') : Grown b.ports b'.ports := by
  cases h with
  | message socket message =>
    have htaken : Grown b.ports (modifySocket socket
        (fun k => { k with inbox := k.inbox.tail, underway := .nothing }) b.ports) :=
      grown_keep (fun _ => rfl)
    change Grown b.ports (takeMessage socket message b.ports)
    unfold takeMessage
    dsimp only
    split
    · exact htaken
    · exact htaken.trans (grown_relayed (relayed_record _ _))
  | call call => exact .refl _

/-- A step of a bridge takes back nothing it has sent. -/
theorem grown_step {w : World} (e : Event) (hw : Sound options False w) :
    Grown w.state.ports (step options w e).state.ports :=
  step_relation (R := fun b b' => Grown b.ports b'.ports) (fun b => .refl b.ports)
    (fun _ _ _ h h' => h.trans h') (fun _ _ _ h => grown_prepares h) (fun _ _ _ h => grown_move h)
    hw.standing (evolves_step e hw)

end Bridge

/-- Changes that leave readiness alone send messages that are no control frames, if the queues
hold packets. -/
theorem mild_of_plain {p q : Ports} (hplain : Plain p q) (hgrown : Grown p q) (hholds : HoldsPackets p)
    {k : ℕ} (hk : k < p.socketCount) : ∃ more, (q.sockets k).sent = (p.sockets k).sent ++ more ∧
      ∀ message ∈ more, controlOf message = none := by
  obtain ⟨more, hmore⟩ := hgrown.sent k hk
  have hcontrols := hplain.controls hholds k
  unfold controls at hcontrols
  rw [← hmore, List.filterMap_append, List.append_right_eq_self] at hcontrols
  exact ⟨more, hmore.symm, List.filterMap_eq_nil_iff.mp hcontrols⟩

end Fipwave.SentMessages
