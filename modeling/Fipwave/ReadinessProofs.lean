import Fipwave.BrowserReadiness

/-!
# Proofs that are taken and proofs that stand

A readiness frame that is not refused leaves the session ready. The proof that
stands agrees with it unless the session was ready with another one before:
such a frame is taken with its new capability and nothing else happens. A
capability makes the session ready at most once.
-/

namespace Fipwave.ReadinessProofs

open ByteWords FwavProtocol QualificationSession BridgePorts BridgeMethods BridgeServer AsyncMethod
  PortMoves BridgeMoves ReadinessMoves BrowserReadiness TransitionRun

/-- Capabilities and the issues they come from. -/
structure Metered (p : Ports) : Prop where
  /-- Issues that made a session ready were made. -/
  armed : ∀ n ∈ p.armings, n < p.issueCount
  /-- Issues of connections were made. -/
  issued : ∀ k n, (p.sockets k).connection.issue = some n → n < p.issueCount
  /-- Each is the issue of one connection. -/
  distinct : ∀ k l n, (p.sockets k).connection.issue = some n →
    (p.sockets l).connection.issue = some n → k = l
  /-- A capability that is not used has not made a session ready. -/
  fresh : ∀ k n, (p.sockets k).connection.issue = some n →
    (p.sockets k).connection.acousticCapabilityUsed = false → n ∉ p.armings
  /-- A connection without an issue has no capability. -/
  blank : ∀ k, (p.sockets k).connection.issue = none →
    allZero (p.sockets k).connection.acousticCapability = true
  /-- No issue made a session ready twice. -/
  once : p.armings.Nodup

section Metered

variable {p q : Ports}

/-- The invariant rests on the count of issues, the record of armings and the capabilities alone. -/
theorem Metered.of_same (h : Metered p) (hcount : q.issueCount = p.issueCount)
    (harmings : q.armings = p.armings)
    (hsockets : ∀ k, (q.sockets k).connection.issue = (p.sockets k).connection.issue ∧
      (q.sockets k).connection.acousticCapability =
        (p.sockets k).connection.acousticCapability ∧
      (q.sockets k).connection.acousticCapabilityUsed =
        (p.sockets k).connection.acousticCapabilityUsed) : Metered q := by
  refine ⟨?_, ?_, ?_, ?_, ?_, harmings ▸ h.once⟩
  · rw [harmings, hcount]
    exact h.armed
  · intro k n
    rw [(hsockets k).1, hcount]
    exact h.issued k n
  · intro k l n
    rw [(hsockets k).1, (hsockets l).1]
    exact h.distinct k l n
  · intro k n
    rw [(hsockets k).1, (hsockets k).2.2, harmings]
    exact h.fresh k n
  · intro k
    rw [(hsockets k).1, (hsockets k).2.1]
    exact h.blank k

/-- So it is kept wherever the footing of the sockets is. -/
theorem Metered.of_footing (h : Metered p) (hcount : q.issueCount = p.issueCount)
    (harmings : q.armings = p.armings)
    (hsockets : ∀ k, footing (q.sockets k) = footing (p.sockets k)) : Metered q :=
  h.of_same hcount harmings (fun k => ⟨congrArg Footing.issue (hsockets k),
    congrArg Footing.acousticCapability (hsockets k),
    congrArg Footing.acousticCapabilityUsed (hsockets k)⟩)

/-- A plain change issues nothing and arms nothing. -/
theorem Metered.plain (h : Metered p) (hplain : Plain p q) : Metered q :=
  h.of_footing hplain.issueCount hplain.armings hplain.footing

/-- A connection that comes in has no capability. -/
theorem Metered.admit (h : Metered p) (hcount : q.issueCount = p.issueCount)
    (harmings : q.armings = p.armings) (index : ℕ) {socket : Socket}
    (hsockets : q.sockets = Function.update p.sockets index socket)
    (hnone : socket.connection.issue = none)
    (hblank : allZero socket.connection.acousticCapability = true) : Metered q := by
  have hcases : ∀ k, q.sockets k = p.sockets k ∨ q.sockets k = socket := by
    intro k
    rw [hsockets]
    by_cases hk : k = index
    · rw [hk, Function.update_self]
      exact .inr rfl
    · rw [Function.update_of_ne hk]
      exact .inl rfl
  have hissue : ∀ k n, (q.sockets k).connection.issue = some n → q.sockets k = p.sockets k := by
    intro k n hk
    rcases hcases k with heq | heq
    · exact heq
    · rw [heq, hnone] at hk
      cases hk
  refine ⟨?_, ?_, ?_, ?_, ?_, harmings ▸ h.once⟩
  · rw [harmings, hcount]
    exact h.armed
  · intro k n hk
    have heq := hissue k n hk
    rw [heq] at hk
    rw [hcount]
    exact h.issued k n hk
  · intro k l n hk hl
    have heqk := hissue k n hk
    have heql := hissue l n hl
    rw [heqk] at hk
    rw [heql] at hl
    exact h.distinct k l n hk hl
  · intro k n hk hused
    have heq := hissue k n hk
    rw [heq] at hk hused
    rw [harmings]
    exact h.fresh k n hk hused
  · intro k hk
    rcases hcases k with heq | heq
    · rw [heq] at hk ⊢
      exact h.blank k hk
    · rw [heq]
      exact hblank

/-- A browser that is turned away has no capability. -/
theorem metered_turnAway (h : Metered p) : Metered (turnAway p) := by
  refine h.of_same rfl rfl (fun k => ?_)
  unfold turnAway
  rw [sockets_modifySocket]
  split
  · next heq => rw [heq]; exact ⟨rfl, rfl, rfl⟩
  · exact ⟨rfl, rfl, rfl⟩

/-- A browser that comes in has a capability of its own, which is new. -/
theorem metered_connectBrowser (options : PortOptions) (h : Metered p) :
    Metered (connectBrowser options p) := by
  have hadmitted : Metered (admitBrowser p) :=
    h.admit rfl rfl p.socketCount rfl rfl (by simp [freshConnection, allZero])
  unfold connectBrowser
  split
  · exact metered_turnAway h
  · split
    · exact hadmitted.plain (plain_relayed (relayed_flushToBrowser options _))
    · exact hadmitted

/-- The worker is told of an arming without one. -/
theorem metered_notify (armed : Bool) (h : Metered p) :
    Metered (notifyFipsBrowserState armed p) := by
  obtain ⟨hground, -, -, hsockets⟩ := notify_same armed p
  exact h.of_footing (congrArg Ground.issueCount hground) (congrArg Ground.armings hground)
    (fun k => (hsockets k).1)

/-- A worker that comes in has no capability. -/
theorem metered_connectFips (options : PortOptions) (h : Metered p) :
    Metered (connectFips options p) := by
  have hadmitted : Metered (admitFips p) :=
    h.admit rfl rfl p.socketCount rfl rfl rfl
  have hflushed := hadmitted.plain (plain_relayed (relayed_flushToFips options _))
  unfold connectFips
  split
  · exact metered_turnAway h
  · dsimp only
    split
    · exact metered_notify true hflushed
    · exact hflushed

/-- A connection that is gone has armed with what it had. -/
theorem metered_detach (h : Metered p) (socket : ℕ) : Metered (detach socket p) := by
  refine h.of_same rfl rfl (fun k => ?_)
  unfold detach
  rw [sockets_modifySocket]
  split
  · next heq => rw [heq]; exact ⟨rfl, rfl, rfl⟩
  · exact ⟨rfl, rfl, rfl⟩

/-- So has a worker, which has nothing to arm with. -/
theorem metered_closeFips (h : Metered p) (socket : ℕ) : Metered (closeFips socket p) := by
  have hdetached := metered_detach h socket
  unfold closeFips
  dsimp only
  split
  · exact hdetached.of_footing rfl rfl (fun _ => rfl)
  · exact hdetached

/-- Disarming gives no capability back. -/
theorem metered_disarm (h : Metered p) : Metered (disarmAcousticSession p) := by
  obtain ⟨-, -, -, hcount, harmings, hsockets⟩ := disarm_same p
  exact h.of_footing hcount harmings hsockets

/-- Nor does the close of a browser. -/
theorem metered_closeBrowser (h : Metered p) (socket : ℕ) :
    Metered (closeBrowser socket p).2 := by
  have hdetached := metered_detach h socket
  have hcleared := hdetached.plain (plain_relayed (relayed_clearPending _))
  have hleft : Metered { clearPendingBrowserAdmission (detach socket p) with owner := none } :=
    hcleared.of_footing rfl rfl (fun _ => rfl)
  have hreleased : Metered (releaseOwner (detach socket p)) := metered_disarm hleft
  unfold closeBrowser
  dsimp only
  split
  · exact hdetached
  · split
    · exact hreleased.of_footing rfl rfl (fun _ => rfl)
    · split
      · exact hreleased
      · exact hreleased.of_footing rfl rfl (fun _ => rfl)

/-- Taking the bridge out of a state that needs a reset issues nothing. -/
theorem metered_recovers {a : Actor} {f : Ports → Ports} (hf : Recovers a f) (h : Metered p) :
    Metered (f p) := by
  rcases hf with ⟨-, rfl⟩ | ⟨socket, frame, -, -, rfl⟩
  · exact h
  · refine h.of_same rfl rfl (fun k => ?_)
    unfold modifyConnection
    rw [sockets_modifySocket]
    split
    · next heq => rw [heq]; exact ⟨rfl, rfl, rfl⟩
    · exact ⟨rfl, rfl, rfl⟩

/-- An issue is the next number, so no capability has been issued before, on this connection or
another. -/
theorem metered_issue (options : PortOptions) (h : Metered p) (socket : ℕ) :
    Metered (issueAcousticCapability options socket p) := by
  have hissued : Metered (modifyConnection socket (fun c => { c with
      acousticCapability := options.randomBytes p.issueCount
      acousticCapabilityUsed := false
      issue := some p.issueCount }) { p with issueCount := p.issueCount + 1 }) := by
    have hcases : ∀ k n, (((modifyConnection socket (fun c => { c with
        acousticCapability := options.randomBytes p.issueCount
        acousticCapabilityUsed := false
        issue := some p.issueCount }) { p with issueCount := p.issueCount + 1 }).sockets
          k).connection.issue = some n) →
        k = socket ∧ n = p.issueCount ∨ k ≠ socket ∧
          (p.sockets k).connection.issue = some n := by
      intro k n hk
      unfold modifyConnection at hk
      rw [sockets_modifySocket] at hk
      split at hk
      · next heq => exact .inl ⟨heq, (Option.some.inj hk).symm⟩
      · next hne => exact .inr ⟨hne, hk⟩
    refine ⟨fun n hn => Nat.lt_succ_of_lt (h.armed n hn), fun k n hk => ?_, fun k l n hk hl => ?_,
      fun k n hk hused => ?_, fun k hk => ?_, h.once⟩
    · rcases hcases k n hk with ⟨-, rfl⟩ | ⟨-, hold⟩
      · exact Nat.lt_succ_self _
      · exact Nat.lt_succ_of_lt (h.issued k n hold)
    · rcases hcases k n hk with ⟨rfl, hn⟩ | ⟨-, hold⟩
      · rcases hcases l n hl with ⟨rfl, -⟩ | ⟨-, hold⟩
        · rfl
        · have := h.issued l n hold
          omega
      · rcases hcases l n hl with ⟨-, hn⟩ | ⟨-, hold'⟩
        · have := h.issued k n hold
          omega
        · exact h.distinct k l n hold hold'
    · rcases hcases k n hk with ⟨-, rfl⟩ | ⟨hne, hold⟩
      · exact fun hmem => absurd (h.armed _ hmem) (lt_irrefl _)
      · refine h.fresh k n hold ?_
        unfold modifyConnection at hused
        rwa [sockets_modifySocket, if_neg hne] at hused
    · unfold modifyConnection at hk ⊢
      rw [sockets_modifySocket] at hk ⊢
      split at hk
      · cases hk
      · next hne =>
        rw [if_neg hne]
        exact h.blank k hk
  unfold issueAcousticCapability
  dsimp only
  split
  · exact hissued.plain (plain_send socket rfl _)
  · exact hissued

/-- A proof that is taken uses up the issue of its connection. That it was unused is among the tests
of the handler. -/
theorem metered_arm (h : Metered p) {socket : ℕ} {frame : FwavFrame}
    (harms : arms socket frame p = true) :
    Metered (armAcousticSession socket frame.payload p) := by
  simp only [arms, Bool.and_eq_true, Bool.not_eq_true', decide_eq_true_eq] at harms
  obtain ⟨⟨-, hunused⟩, hproof⟩ := harms
  obtain ⟨n, hissue⟩ : ∃ n, (p.sockets socket).connection.issue = some n := by
    by_contra hnone
    rw [not_exists] at hnone
    have hblank := h.blank socket (Option.eq_none_iff_forall_ne_some.mpr hnone)
    split at hproof
    · next proof hdecode =>
      have hzero : allZero proof.capability = true := by
        rw [of_decide_eq_true hproof]
        exact hblank
      unfold decodeAcousticReadinessProof at hdecode
      split at hdecode
      · cases hdecode
      · dsimp only at hdecode
        split at hdecode
        · cases hdecode
        · next hvalid =>
          cases hdecode
          exact hvalid (.inr (.inr hzero))
    · cases hproof
  have hnew := h.fresh socket n hissue hunused
  unfold armAcousticSession
  refine metered_notify true ?_
  have hsocket : ∀ k, (((modifyConnection socket (fun c =>
      { c with acousticCapabilityUsed := true }) p).sockets k).connection.issue =
        (p.sockets k).connection.issue ∧
      ((modifyConnection socket (fun c =>
      { c with acousticCapabilityUsed := true }) p).sockets k).connection.acousticCapability =
        (p.sockets k).connection.acousticCapability) ∧
      (((modifyConnection socket (fun c => { c with acousticCapabilityUsed := true }) p).sockets
        k).connection.acousticCapabilityUsed = false → k ≠ socket ∧
        (p.sockets k).connection.acousticCapabilityUsed = false) := by
    intro k
    unfold modifyConnection
    rw [sockets_modifySocket]
    split
    · next heq =>
      rw [heq]
      exact ⟨⟨rfl, rfl⟩, fun hused => by cases hused⟩
    · next hne => exact ⟨⟨rfl, rfl⟩, fun hused => ⟨hne, hused⟩⟩
  simp only [hissue, Option.toList_some]
  refine ⟨fun m hm => ?_, fun k m hk => ?_, fun k l m hk hl => ?_, fun k m hk hused => ?_,
    fun k hk => ?_, ?_⟩
  · rcases List.mem_append.mp hm with hm | hm
    · exact h.armed m hm
    · rw [List.mem_singleton.mp hm]
      exact h.issued socket n hissue
  · rw [(hsocket k).1.1] at hk
    exact h.issued k m hk
  · rw [(hsocket k).1.1] at hk
    rw [(hsocket l).1.1] at hl
    exact h.distinct k l m hk hl
  · rw [(hsocket k).1.1] at hk
    obtain ⟨hne, hunused'⟩ := (hsocket k).2 hused
    intro hmem
    rcases List.mem_append.mp hmem with hmem | hmem
    · exact h.fresh k m hk hunused' hmem
    · rw [List.mem_singleton.mp hmem] at hk
      exact hne (h.distinct k socket n hk hissue)
  · rw [(hsocket k).1.1] at hk
    rw [(hsocket k).1.2]
    exact h.blank k hk
  · refine List.nodup_append.mpr ⟨h.once, List.nodup_singleton n, fun x hx y hy => ?_⟩
    rw [List.mem_singleton.mp hy]
    rintro rfl
    exact hnew hx

/-- A reset issues nothing by itself. -/
theorem metered_resetPorts (a : Actor) (h : Metered p) : Metered (resetPorts a p) := by
  refine h.of_same rfl rfl (fun k => ?_)
  simp only [resetPorts, clearQueues, record, refreshState, clearPendingBrowserAdmission,
    renewSocket]
  split <;> exact ⟨rfl, rfl, rfl⟩

/-- Nor does its announcement. -/
theorem metered_announceReset (a : Actor) (h : Metered p) : Metered (announceReset a p) := by
  refine h.of_same rfl rfl (fun k => ?_)
  unfold announceReset
  dsimp only
  split <;> exact ⟨rfl, rfl, rfl⟩

/-- Every move keeps that each capability arms once at most. -/
theorem Metered.move {options : PortOptions} {a : Actor} (h : Metered p)
    (hmove : ReadinessMove options a p q) : Metered q := by
  cases hmove with
  | greets => exact metered_connectBrowser options h
  | joins => exact metered_connectFips options h
  | leavesFips => exact metered_closeFips h _
  | leaves => exact metered_closeBrowser h _
  | readies hcarries harms => exact metered_arm h harms
  | disarms => exact metered_issue options (metered_disarm h) _
  | hails => exact metered_issue options h _
  | exhausts hf => exact metered_recovers hf h
  | resets hf => exact metered_resetPorts a (metered_disarm (metered_recovers hf h))
  | announces => exact metered_announceReset a h

end Metered

/-- Capabilities are accounted for in every state the bridge reaches. -/
theorem metered_run (options : BridgeServerOptions) (events : List Event) :
    Metered (run (step options) (createBridgeServer options) events).state.ports := by
  refine bridge_always (I := fun b => Metered b.ports) ?_ ?_ ?_ events
  · intro a b b' _ hprepares hI
    exact hI.plain (plain_prepares hprepares)
  · intro a b b' _ hmove hI
    rcases bridge_plain_or hmove with hplain | hturn
    · exact hI.plain hplain
    · exact hI.move hturn
  · constructor <;> simp [createBridgeServer, allZero]

/-- Session, settings digest and capability of a proof. -/
def proofTuple (payload : Bytes) : ℕ × Bytes × Bytes :=
  (wordAt payload 0 8, sliceAt payload 8 32, sliceAt payload 48 16)

/-- The session is ready, and the proof that stands agrees with a frame. -/
def ProofStands (frame : FwavFrame) (p : Ports) : Prop :=
  p.acousticReady = true ∧ p.acousticReadinessProof.map proofTuple = some (proofTuple frame.payload)

/-- A readiness frame that is taken: the proof that stands agrees with it afterwards exactly if
the session was not ready with another proof before. -/
theorem proofStands_iff {socket : ℕ} {frame : FwavFrame} {now : ℕ} {p q : Ports}
    (h : acceptAcousticReady socket frame now p = .ok q) :
    ProofStands frame q ↔ (p.acousticReady = true →
      p.acousticReadinessProof.map proofTuple = some (proofTuple frame.payload)) := by
  have hsame : p.acousticReady = true → (ProofStands frame p ↔ (p.acousticReady = true →
      p.acousticReadinessProof.map proofTuple = some (proofTuple frame.payload))) := by
    intro hready
    exact ⟨fun hstands _ => hstands.2, fun hproof => ⟨hready, hproof hready⟩⟩
  unfold acceptAcousticReady at h
  split at h
  · cases h
  · split at h
    · cases h
    · dsimp only at h
      split at h
      · next hreplay =>
        cases h
        simp only [replaysReadiness, Bool.and_eq_true] at hreplay
        exact hsame hreplay.1
      · split at h
        · cases h
        · split at h
          · next hidle =>
            cases h
            rw [Bool.not_eq_true'] at hidle
            have hground := ground_arm socket frame.payload p
            have hready := congrArg Ground.acousticReady hground
            have hproof : (armAcousticSession socket frame.payload p).acousticReadinessProof =
              some frame.payload := congrArg Ground.acousticReadinessProof hground
            refine ⟨fun _ hbefore => ?_, fun _ => ⟨hready, by rw [hproof]; rfl⟩⟩
            rw [hidle] at hbefore
            cases hbefore
          · next hidle =>
            cases h
            rw [Bool.not_eq_true', Bool.not_eq_false] at hidle
            exact hsame hidle

section Steps

variable {options : BridgeServerOptions} {socket : ℕ} {message : RawMessage} {frame : FwavFrame}

/-- A message that is refused is on record. -/
theorem refused_rejectMessage (error : Refusal) (b : Bridge)
    (rest : List (Process Actor Bridge Refusal Awaited Reply)) :
    (settle (.handler socket message) rest
      (rejectMessage options socket message error b)).state.ports.refused =
      b.ports.refused ++ [⟨socket, message, (b.ports.sockets socket).attached⟩] := by
  cases error with
  | other text => rfl
  | input reasonCode =>
    have hunfold : rejectMessage options socket message (.input reasonCode) =
        (do
          onPorts (refuse socket message)
          if options.trial.config.isSome then
            onTrial (BridgeTrial.addFailure reasonCode)
            let on ← persist options none
            let _ ← await on
            pure ()
          else pure ()
          onPorts (rejectSocket socket)) := rfl
    rw [hunfold]
    cases options.trial.config.isSome with
    | true => rfl
    | false => rfl

/-- A readiness frame: it is refused for its epoch or its connection, or it is looked at. -/
theorem acceptMessage_ready (options : BridgeServerOptions) (socket : ℕ) (b : Bridge)
    (hbinary : message.isBinary = true) (hdecode : decodeFrame message.rawData = .ok frame)
    (htype : frame.type = .acousticReady) :
    (∃ error, acceptMessage options (.handler socket message) socket message b = .error error b) ∨
      acceptMessage options (.handler socket message) socket message b =
        attempt (acceptAcousticReady socket frame (options.now b.readings))
          { b with readings := b.readings + 1 } := by
  unfold acceptMessage
  rw [hbinary, hdecode]
  change (∃ error, (if frame.epoch ≠ b.ports.epoch then
      (raise (.input "stale_or_duplicate_frame") : BridgeM Unit)
      else if (b.ports.sockets socket).connection.mustResetBeforeUse ∧ frame.type ≠ .reset then
        raise (.input "recovery_reset_required")
      else acceptCurrent options (.handler socket message) socket frame) b = .error error b) ∨
    (if frame.epoch ≠ b.ports.epoch then
      (raise (.input "stale_or_duplicate_frame") : BridgeM Unit)
      else if (b.ports.sockets socket).connection.mustResetBeforeUse ∧ frame.type ≠ .reset then
        raise (.input "recovery_reset_required")
      else acceptCurrent options (.handler socket message) socket frame) b = _
  split
  · exact .inl ⟨_, rfl⟩
  · split
    · exact .inl ⟨_, rfl⟩
    · right
      unfold acceptCurrent
      rw [htype]
      rfl

/-- A readiness frame that is handled is taken, or it is on record as refused. Its handler does not
wait, so the step shows the whole of it. -/
theorem step_ready (options : BridgeServerOptions) {w : World} {rest : List RawMessage}
    (hendpoint : (w.state.ports.sockets socket).endpoint = .browser)
    (hinbox : (w.state.ports.sockets socket).inbox = message :: rest)
    (hwaits : handlerWaits socket w = false) (hbinary : message.isBinary = true)
    (hdecode : decodeFrame message.rawData = .ok frame) (htype : frame.type = .acousticReady) :
    (step options w (.process socket)).state.ports.refused ≠ w.state.ports.refused ∨
      acceptAcousticReady socket frame (options.now w.state.readings)
        (beginMessage socket message w.state).ports =
          .ok (step options w (.process socket)).state.ports := by
  have hstep : step options w (.process socket) = settle (.handler socket message) w.processes
      ((acceptMessage options (.handler socket message) socket message
        (beginMessage socket message w.state)).catching
          (rejectMessage options socket message)) := by
    simp only [step, processMessage, hinbox, hwaits, hendpoint]
    rfl
  have hrefused : (beginMessage socket message w.state).ports.refused = w.state.ports.refused := by
    simp only [beginMessage, takeMessage]
    split <;> rfl
  have hgone : ∀ (error : Refusal) (b : Bridge), b.ports.refused = w.state.ports.refused →
      (settle (.handler socket message) w.processes
        (rejectMessage options socket message error b)).state.ports.refused ≠
        w.state.ports.refused := by
    intro error b hb
    rw [refused_rejectMessage, hb]
    simp
  rw [hstep]
  rcases acceptMessage_ready options socket (beginMessage socket message w.state) hbinary hdecode
    htype with ⟨error, heq⟩ | heq
  · rw [heq]
    exact .inl (hgone error _ hrefused)
  · rw [heq]
    unfold attempt
    dsimp only
    have hreadings : (beginMessage socket message w.state).readings = w.state.readings := rfl
    rw [hreadings]
    split
    · next q hq =>
      right
      exact hq
    · next thrown hthrown =>
      left
      refine hgone thrown.error _ ?_
      have hports : thrown.ports = (beginMessage socket message w.state).ports := by
        unfold acceptAcousticReady at hthrown
        split at hthrown
        · cases hthrown
          rfl
        · split at hthrown
          · cases hthrown
            rfl
          · dsimp only at hthrown
            split at hthrown
            · cases hthrown
            · split at hthrown
              · cases hthrown
                rfl
              · split at hthrown <;> cases hthrown
      dsimp only
      rw [hports]
      exact hrefused

end Steps

/-- In every state of every run, when a readiness frame is handled and not refused, then the
session is ready and the proof that stands agrees with the frame on session, settings and
capability exactly if the session was not ready with a proof that disagrees before; and no
capability has made the session ready twice. -/
theorem accepted_proof_stands (options : BridgeServerOptions) (events : List Event) (socket : ℕ)
    (message : RawMessage) (rest : List RawMessage) (frame : FwavFrame) :
    let w := run (step options) (createBridgeServer options) events
    let w' := step options w (.process socket)
    w.state.ports.armings.Nodup ∧
      ((w.state.ports.sockets socket).endpoint = .browser →
        (w.state.ports.sockets socket).inbox = message :: rest →
        handlerWaits socket w = false → message.isBinary = true →
        decodeFrame message.rawData = .ok frame → frame.type = .acousticReady →
        w'.state.ports.refused = w.state.ports.refused →
        (ProofStands frame w'.state.ports ↔ (w.state.ports.acousticReady = true →
          w.state.ports.acousticReadinessProof.map proofTuple =
            some (proofTuple frame.payload)))) := by
  intro w w'
  refine ⟨(metered_run options events).once, ?_⟩
  intro hendpoint hinbox hwaits hbinary hdecode htype haccepted
  rcases step_ready options hendpoint hinbox hwaits hbinary hdecode htype with
    hrefused | htaken
  · exact absurd haccepted hrefused
  · have hplain := plain_prepares (Prepares.message socket message w.state)
    rw [← hplain.acousticReady, ← hplain.acousticReadinessProof]
    exact proofStands_iff htaken

/-- A browser asks for a capability and proves that it is ready. -/
def benchProved : List Event :=
  [.connectBrowser, .resume 0 .resolved, .receive 0 (benchHello 1 0), .process 0,
    .receive 0 (benchReady 1 0)]

/-- The proof of the bench with a capability, as it is decoded. -/
def benchProof (capability : ℕ) : FwavFrame :=
  { type := .acousticReady
    flags := some 0
    epoch := 1
    sequence := 0
    sampleRate := some 0
    channels := some 0
    encoding := some 0
    payload := writeWord 8 1 ++ List.replicate 32 1 ++ writeWord 8 0 ++
      List.replicate 16 (lowByte (capability + 1)) }

/-- Its proof is not refused, and it stands. -/
theorem accepted_proof_stands_bench :
    let w := run (step benchBridge) (createBridgeServer benchBridge) benchProved
    let w' := step benchBridge w (.process 0)
    w'.state.ports.refused = w.state.ports.refused ∧
      ProofStands (benchProof 0) w'.state.ports := by
  intro w w'
  have haccepted : w'.state.ports.refused = w.state.ports.refused := by decide +kernel
  refine ⟨haccepted, ?_⟩
  obtain ⟨-, hstands⟩ :=
    accepted_proof_stands benchBridge benchProved 0 (benchReady 1 0) [] (benchProof 0)
  refine (hstands (by decide +kernel) (by decide +kernel) (by decide +kernel) rfl
    (by decide +kernel) rfl haccepted).mpr ?_
  decide +kernel

/-- A browser becomes ready, and asks for another capability. -/
def benchHailed : List Event :=
  [.connectBrowser, .resume 0 .resolved, .receive 0 (benchHello 1 0), .process 0,
    .receive 0 (benchReady 1 0), .process 0, .receive 0 (benchHello 1 1), .process 0,
    .receive 0 (benchReady 1 1)]

/-- Its proof with the second capability is not refused, and the proof with the first one stands. -/
theorem not_proofStands_hailed :
    let w := run (step benchBridge) (createBridgeServer benchBridge) benchHailed
    let w' := step benchBridge w (.process 0)
    (w.state.ports.sockets 0).inbox = [benchReady 1 1] ∧ handlerWaits 0 w = false ∧
      w'.state.ports.refused = w.state.ports.refused ∧
      ∃ frame, decodeFrame (benchReady 1 1).rawData = .ok frame ∧ frame.type = .acousticReady ∧
        ¬ProofStands frame w'.state.ports := by
  refine ⟨by decide +kernel, by decide +kernel, by decide +kernel,
    benchProof 1, by decide +kernel, rfl, ?_⟩
  rintro ⟨-, hproof⟩
  revert hproof
  decide +kernel

end Fipwave.ReadinessProofs
