import Fipwave.ReadinessMoves

/-!
# Who is ready, and who knows

The acoustic session of a bridge is ready once a proof of a browser was taken.
The worker is told so by control frames; the proof belongs to a connection
and to one capability. The three views agree as long as no proof is taken
while a reset waits for its report, and as long as a proof is taken from the
open owner of the browser endpoint and its connection does not begin to close
while the proof stands.
-/

namespace Fipwave.BrowserReadiness

open ByteWords FwavProtocol QualificationSession BridgePorts BridgeMethods BridgeServer PortMoves
  BridgeMoves ReadinessMoves TransitionRun

/-- The last control frame sent on a socket. -/
def lastControl (k : Socket) : Option MessageType := (controls k).getLast?

/-- The worker whose connection is open was last told that the browser is ready exactly if the
session is ready. -/
def WorkerKnows (p : Ports) : Prop :=
  ∀ worker, openOwner p.fipsOwner p = some worker →
    (lastControl (p.sockets worker) = some .browserArm ↔ p.acousticReady = true)

/-- What the worker knows, with what keeps it so. -/
structure Attuned (p : Ports) : Prop where
  /-- The packet queues hold packets. -/
  holds : HoldsPackets p
  /-- The owner of the FIPS endpoint is a worker whose close was not handled yet. -/
  worker : ∀ k, p.fipsOwner = some k →
    (p.sockets k).attached = true ∧ (p.sockets k).endpoint = .fips
  /-- Readiness has a proof. -/
  proof : p.acousticReady = true → p.acousticReadinessProof ≠ none
  /-- No reset waits for its report while the session is ready. -/
  calm : p.acousticReady = true → p.resetsUnderway = []
  /-- The worker knows. -/
  told : ∀ k, p.fipsOwner = some k → isOpen k p = true →
    (lastControl (p.sockets k) = some .browserArm ↔ p.acousticReady = true)

/-- The open owner of an endpoint is its owner, if the connection of it is open. -/
theorem openOwner_eq_some {owner : Option ℕ} {p : Ports} {k : ℕ} :
    openOwner owner p = some k ↔ owner = some k ∧ isOpen k p = true := by
  unfold openOwner
  rw [Option.filter_eq_some_iff]

/-- Under the invariant the worker that is connected knows whether the browser is ready. -/
theorem Attuned.workerKnows {p : Ports} (h : Attuned p) : WorkerKnows p := by
  intro worker hworker
  rw [openOwner_eq_some] at hworker
  exact h.told worker hworker.1 hworker.2

section Attuned

variable {p q : Ports}

/-- Changes that do not concern the worker. -/
theorem Attuned.of_same (h : Attuned p) (hready : q.acousticReady = p.acousticReady)
    (hproof : q.acousticReadinessProof = p.acousticReadinessProof)
    (howner : q.fipsOwner = p.fipsOwner) (hresets : ∀ x ∈ q.resetsUnderway, x ∈ p.resetsUnderway)
    (hsockets : ∀ k, p.fipsOwner = some k → (q.sockets k).attached = (p.sockets k).attached ∧
      (q.sockets k).endpoint = (p.sockets k).endpoint ∧
      controls (q.sockets k) = controls (p.sockets k) ∧
      (isOpen k q = true → isOpen k p = true))
    (hholds : HoldsPackets q) : Attuned q := by
  refine ⟨hholds, fun k hk => ?_, fun hq => ?_, fun hq => ?_, fun k hk hopen => ?_⟩
  · rw [howner] at hk
    rw [(hsockets k hk).1, (hsockets k hk).2.1]
    exact h.worker k hk
  · rw [hproof]
    exact h.proof (hready ▸ hq)
  · have hnone := h.calm (hready ▸ hq)
    exact List.subset_nil.mp (fun x hx => hnone ▸ hresets x hx)
  · rw [howner] at hk
    obtain ⟨-, -, hcontrols, hopened⟩ := hsockets k hk
    rw [hready, lastControl, hcontrols]
    exact h.told k hk (hopened hopen)

/-- The invariant rests on nothing that a plain change touches. -/
theorem Attuned.plain (h : Attuned p) (hplain : Plain p q) : Attuned q :=
  h.of_same hplain.acousticReady hplain.acousticReadinessProof hplain.fipsOwner hplain.resets
    (fun k _ => ⟨hplain.attached k, hplain.endpoint k, hplain.controls h.holds k, hplain.opened k⟩)
    (hplain.holds h.holds)

/-- Another socket than that of the worker changes. -/
theorem Attuned.of_other (h : Attuned p) (hready : q.acousticReady = p.acousticReady)
    (hproof : q.acousticReadinessProof = p.acousticReadinessProof)
    (howner : q.fipsOwner = p.fipsOwner) (hresets : q.resetsUnderway = p.resetsUnderway)
    {socket : ℕ} (hother : p.fipsOwner ≠ some socket)
    (hsockets : ∀ k ≠ socket, q.sockets k = p.sockets k) (hholds : HoldsPackets q) :
    Attuned q := by
  refine h.of_same hready hproof howner (fun x hx => hresets ▸ hx) (fun k hk => ?_) hholds
  have hne : k ≠ socket := by
    rintro rfl
    exact hother hk
  unfold isOpen
  rw [hsockets k hne]
  exact ⟨rfl, rfl, rfl, id⟩

/-- The owner of the FIPS endpoint is among the sockets there are. -/
theorem Attuned.owner_ne (h : Attuned p) (hplaced : Placed p) :
    p.fipsOwner ≠ some p.socketCount := by
  intro howner
  have := hplaced p.socketCount (.inl (h.worker _ howner).1)
  omega

/-- A browser that is turned away takes a place that no worker has. -/
theorem attuned_turnAway (h : Attuned p) (hplaced : Placed p) : Attuned (turnAway p) := by
  refine h.of_other rfl rfl rfl rfl (h.owner_ne hplaced) (fun k hk => ?_) h.holds
  exact Function.update_of_ne hk _ _

/-- A browser that comes in is no worker, and the worker is told nothing by it. -/
theorem attuned_connectBrowser (options : PortOptions) (h : Attuned p) (hplaced : Placed p) :
    Attuned (connectBrowser options p) := by
  have hadmitted : Attuned (admitBrowser p) := by
    refine h.of_other rfl rfl rfl rfl (h.owner_ne hplaced) (fun k hk => ?_) h.holds
    exact Function.update_of_ne hk _ _
  unfold connectBrowser
  split
  · exact attuned_turnAway h hplaced
  · split
    · exact hadmitted.plain (plain_relayed (relayed_flushToBrowser options _))
    · exact hadmitted

/-- Telling the worker adds one control to the stream of the open owner, if a proof stands. -/
theorem controls_notify (armed : Bool) (p : Ports) (k : ℕ) :
    controls ((notifyFipsBrowserState armed p).sockets k) =
      if openOwner p.fipsOwner p = some k ∧ p.acousticReadinessProof ≠ none then
        controls (p.sockets k) ++ [if armed then .browserArm else .browserDisarm]
      else controls (p.sockets k) := by
  unfold notifyFipsBrowserState
  split
  · next worker proof hworker hproof =>
    rw [hworker, hproof]
    unfold send
    rw [sockets_modifySocket]
    by_cases hk : k = worker
    · subst hk
      cases armed <;> simp [controls, controlOf, isControl]
    · have hne : ¬(some worker = some k ∧ some proof ≠ none) :=
        fun h => hk (Option.some.inj h.1).symm
      rw [if_neg hk, if_neg hne]
  · next hnone =>
    rw [if_neg]
    rintro ⟨hworker, hproof⟩
    obtain ⟨proof, hsome⟩ := Option.ne_none_iff_exists'.mp hproof
    exact hnone k proof hworker hsome

/-- Telling the worker changes what was sent to it, and nothing else. -/
theorem notify_same (armed : Bool) (p : Ports) :
    groundOf (notifyFipsBrowserState armed p) = groundOf p ∧
      (notifyFipsBrowserState armed p).resetsUnderway = p.resetsUnderway ∧
      (HoldsPackets p → HoldsPackets (notifyFipsBrowserState armed p)) ∧
      ∀ k, footing ((notifyFipsBrowserState armed p).sockets k) = footing (p.sockets k) ∧
        ((notifyFipsBrowserState armed p).sockets k).readyState = (p.sockets k).readyState := by
  unfold notifyFipsBrowserState
  split
  · refine ⟨rfl, rfl, id, fun k => ?_⟩
    unfold send
    rw [sockets_modifySocket]
    split
    · next heq => rw [heq]; exact ⟨rfl, rfl⟩
    · exact ⟨rfl, rfl⟩
  · exact ⟨rfl, rfl, id, fun _ => ⟨rfl, rfl⟩⟩

/-- What a proof that is taken changes, apart from the sockets. -/
theorem ground_arm (socket : ℕ) (payload : Bytes) (p : Ports) :
    groundOf (armAcousticSession socket payload p) =
      { groundOf p with
        acousticReady := true
        acousticReadinessProof := some payload
        armedBy := some socket
        armings := p.armings ++ (p.sockets socket).connection.issue.toList } := by
  unfold armAcousticSession
  exact (notify_same true _).1

/-- A session that is ready or ends being ready: the worker is told. -/
theorem Attuned.notify {armed : Bool} (h : ∀ k, p.fipsOwner = some k →
      (p.sockets k).attached = true ∧ (p.sockets k).endpoint = .fips)
    (hholds : HoldsPackets p) (hproof : p.acousticReadinessProof ≠ none)
    (hready : p.acousticReady = armed) (hcalm : armed = true → p.resetsUnderway = []) :
    Attuned (notifyFipsBrowserState armed p) := by
  obtain ⟨hground, hresets, hpackets, hsockets⟩ := notify_same armed p
  have hready' : (notifyFipsBrowserState armed p).acousticReady = armed :=
    (congrArg Ground.acousticReady hground).trans hready
  have howner : (notifyFipsBrowserState armed p).fipsOwner = p.fipsOwner :=
    congrArg Ground.fipsOwner hground
  refine ⟨hpackets hholds, fun k hk => ?_, fun _ => ?_, fun hq => ?_, fun k hk hopen => ?_⟩
  · rw [howner] at hk
    have hattached := congrArg Footing.attached (hsockets k).1
    have hendpoint := congrArg Footing.endpoint (hsockets k).1
    exact ⟨hattached.trans (h k hk).1, hendpoint.trans (h k hk).2⟩
  · rw [show (notifyFipsBrowserState armed p).acousticReadinessProof =
      p.acousticReadinessProof from congrArg Ground.acousticReadinessProof hground]
    exact hproof
  · rw [hresets]
    exact hcalm (hready' ▸ hq)
  · rw [howner] at hk
    have hworker : openOwner p.fipsOwner p = some k := by
      rw [openOwner_eq_some]
      unfold isOpen at hopen ⊢
      rw [(hsockets k).2] at hopen
      exact ⟨hk, hopen⟩
    rw [hready', lastControl, controls_notify, if_pos ⟨hworker, hproof⟩, List.getLast?_concat]
    cases armed <;> simp

/-- A worker that comes in is told at once whether the browser is ready. -/
theorem attuned_connectFips (options : PortOptions) (h : Attuned p) (hplaced : Placed p) :
    Attuned (connectFips options p) := by
  unfold connectFips
  split
  · exact attuned_turnAway h hplaced
  · have hplain := plain_relayed (relayed_flushToFips options (admitFips p))
    have hflushed : (∀ k, (flushPacketQueue options .browserToFips (admitFips p)).fipsOwner =
        some k → ((flushPacketQueue options .browserToFips (admitFips p)).sockets k).attached =
          true ∧ ((flushPacketQueue options .browserToFips (admitFips p)).sockets k).endpoint =
          .fips) ∧ ∀ k, (flushPacketQueue options .browserToFips (admitFips p)).fipsOwner =
        some k → controls ((flushPacketQueue options .browserToFips (admitFips p)).sockets k) = [] := by
      have hadmitted : ∀ k, (admitFips p).fipsOwner = some k → (admitFips p).sockets k =
          { endpoint := .fips, readyState := .opened, attached := true } := by
        intro k hk
        cases hk
        exact Function.update_self _ _ _
      refine ⟨fun k hk => ?_, fun k hk => ?_⟩
      · have hk' : (admitFips p).fipsOwner = some k := hplain.fipsOwner ▸ hk
        have hattached := hplain.attached k
        have hendpoint := hplain.endpoint k
        rw [hadmitted k hk'] at hattached hendpoint
        exact ⟨hattached, hendpoint⟩
      · have hk' : (admitFips p).fipsOwner = some k := hplain.fipsOwner ▸ hk
        have hcontrols := hplain.controls h.holds k
        rw [hadmitted k hk'] at hcontrols
        exact hcontrols
    have hready := hplain.acousticReady
    have hproof := hplain.acousticReadinessProof
    have hresets := hplain.resets
    have hholds := hplain.holds h.holds
    change (flushPacketQueue options .browserToFips (admitFips p)).acousticReady =
      p.acousticReady at hready
    change (flushPacketQueue options .browserToFips (admitFips p)).acousticReadinessProof =
      p.acousticReadinessProof at hproof
    change ∀ x ∈ (flushPacketQueue options .browserToFips (admitFips p)).resetsUnderway,
      x ∈ p.resetsUnderway at hresets
    change HoldsPackets (flushPacketQueue options .browserToFips (admitFips p)) at hholds
    generalize flushPacketQueue options .browserToFips (admitFips p) = r at *
    have hcalm : r.acousticReady = true → r.resetsUnderway = [] := by
      intro hr
      have hnone := h.calm (hready ▸ hr)
      exact List.subset_nil.mp (fun x hx => hnone ▸ hresets x hx)
    dsimp only
    split
    · next hr =>
      exact .notify hflushed.1 hholds (hproof ▸ h.proof (hready ▸ hr)) hr (fun _ => hcalm hr)
    · next hr =>
      refine ⟨hholds, hflushed.1, fun hq => absurd hq hr, fun hq => absurd hq hr,
        fun k hk _ => ?_⟩
      rw [lastControl, hflushed.2 k hk]
      simp [hr]

/-- The worker still knows when another socket than its own is gone. -/
theorem attuned_detach (h : Attuned p) {socket : ℕ} (hother : p.fipsOwner ≠ some socket) :
    Attuned (detach socket p) := by
  refine h.of_other rfl rfl rfl rfl hother (fun k hk => ?_) h.holds
  exact Function.update_of_ne hk _ _

/-- There is no worker to know anything once it is gone. -/
theorem attuned_closeFips (h : Attuned p) (socket : ℕ) : Attuned (closeFips socket p) := by
  unfold closeFips
  dsimp only
  split
  · exact ⟨h.holds, fun k hk => (by cases hk), h.proof, h.calm, fun k hk => (by cases hk)⟩
  · next hother => exact attuned_detach h hother

/-- Disarming ends readiness and tells the worker so in the same breath. -/
theorem attuned_disarm (h : Attuned p) : Attuned (disarmAcousticSession p) ∧
    (disarmAcousticSession p).acousticReady = false := by
  unfold disarmAcousticSession
  split
  · next hready =>
    rw [Bool.not_eq_true'] at hready
    exact ⟨h, hready⟩
  · next hready =>
    rw [Bool.not_eq_true', Bool.not_eq_false] at hready
    have htold : Attuned (notifyFipsBrowserState false
        { p with acousticReady := false, armedBy := none }) :=
      .notify h.worker h.holds (h.proof hready) rfl (by simp)
    have hfalse : (notifyFipsBrowserState false
        { p with acousticReady := false, armedBy := none }).acousticReady = false :=
      congrArg Ground.acousticReady (notify_same false _).1
    generalize notifyFipsBrowserState false
      { p with acousticReady := false, armedBy := none } = q at htold hfalse
    have hforgotten : Attuned { q with acousticReadinessProof := none } := by
      refine ⟨htold.holds, htold.worker, fun hq => ?_, htold.calm, htold.told⟩
      rw [hfalse] at hq
      cases hq
    have hplain := plain_relayed (relayed_clearQueues { q with acousticReadinessProof := none })
    exact ⟨hforgotten.plain hplain, hplain.acousticReady.trans hfalse⟩

/-- The browser that made the session ready ends readiness when it is gone. -/
theorem attuned_closeBrowser (h : Attuned p) {socket : ℕ}
    (hendpoint : (p.sockets socket).endpoint = .browser) :
    Attuned (closeBrowser socket p).2 := by
  have hother : p.fipsOwner ≠ some socket := by
    intro howner
    have hfips := (h.worker socket howner).2
    rw [hendpoint] at hfips
    cases hfips
  have hdetached := attuned_detach h hother
  have hcleared := hdetached.plain (plain_relayed (relayed_clearPending _))
  have hleft : Attuned { clearPendingBrowserAdmission (detach socket p) with owner := none } :=
    ⟨hcleared.holds, hcleared.worker, hcleared.proof, hcleared.calm, hcleared.told⟩
  have hreleased : Attuned (releaseOwner (detach socket p)) := (attuned_disarm hleft).1
  unfold closeBrowser
  dsimp only
  split
  · exact hdetached
  · split
    · exact ⟨hreleased.holds, hreleased.worker, hreleased.proof, hreleased.calm, hreleased.told⟩
    · split
      · exact hreleased
      · exact ⟨hreleased.holds, hreleased.worker, hreleased.proof, hreleased.calm,
          hreleased.told⟩

/-- What is kept for a connection does not concern the worker. -/
theorem attuned_modifyConnection (h : Attuned p) (socket : ℕ)
    (f : BrowserConnectionState → BrowserConnectionState) :
    Attuned (modifyConnection socket f p) := by
  refine h.of_same rfl rfl rfl (fun _ hx => hx) (fun k _ => ?_) h.holds
  unfold isOpen modifyConnection
  rw [sockets_modifySocket]
  split
  · next heq => rw [heq]; exact ⟨rfl, rfl, rfl, id⟩
  · exact ⟨rfl, rfl, rfl, id⟩

/-- A capability is said to its browser alone. -/
theorem attuned_issue (options : PortOptions) (h : Attuned p) (socket : ℕ) :
    Attuned (issueAcousticCapability options socket p) := by
  have hcounted : Attuned { p with issueCount := p.issueCount + 1 } :=
    ⟨h.holds, h.worker, h.proof, h.calm, h.told⟩
  unfold issueAcousticCapability
  dsimp only
  split
  · exact (attuned_modifyConnection hcounted socket _).plain (plain_send socket rfl _)
  · exact attuned_modifyConnection hcounted socket _

/-- Taking the bridge out of a state that needs a reset leaves the worker as it was. -/
theorem attuned_recovers {a : Actor} {f : Ports → Ports} (hf : Recovers a f) (h : Attuned p) :
    Attuned (f p) := by
  rcases hf with ⟨-, rfl⟩ | ⟨socket, frame, -, -, rfl⟩
  · exact h
  · exact attuned_modifyConnection h socket _

/-- Arming tells the worker so, unless a RESET is still to be announced to it. -/
theorem attuned_arm (h : Attuned p) (socket : ℕ) (payload : Bytes)
    (hcalm : p.resetsUnderway = []) : Attuned (armAcousticSession socket payload p) := by
  have hspent := attuned_modifyConnection h socket
    (fun c => { c with acousticCapabilityUsed := true })
  unfold armAcousticSession
  exact .notify hspent.worker hspent.holds (by simp) rfl (fun _ => hcalm)

/-- A reset that begins finds the session disarmed, and so it stays until it is announced. -/
theorem attuned_resetPorts (a : Actor) (h : Attuned p) (hidle : p.acousticReady = false) :
    Attuned (resetPorts a p) := by
  have hsocket : ∀ k, ((resetPorts a p).sockets k).attached = (p.sockets k).attached ∧
      ((resetPorts a p).sockets k).endpoint = (p.sockets k).endpoint ∧
      controls ((resetPorts a p).sockets k) = controls (p.sockets k) ∧
      ((resetPorts a p).sockets k).readyState = (p.sockets k).readyState :=
    fun k => ⟨view_resetPorts Socket.attached (fun _ _ _ _ => rfl) a p k,
      view_resetPorts Socket.endpoint (fun _ _ _ _ => rfl) a p k,
      view_resetPorts controls (fun _ _ _ _ => rfl) a p k,
      view_resetPorts Socket.readyState (fun _ _ _ _ => rfl) a p k⟩
  have hready : (resetPorts a p).acousticReady = false := rfl
  refine ⟨?_, fun k hk => ?_, fun hq => ?_, fun hq => ?_, fun k hk hopen => ?_⟩
  · intro entry hentry
    simp [resetPorts, clearQueues, record, refreshState, clearPendingBrowserAdmission] at hentry
  · rw [(hsocket k).1, (hsocket k).2.1]
    exact h.worker k hk
  · rw [hready] at hq
    cases hq
  · rw [hready] at hq
    cases hq
  · unfold isOpen at hopen
    rw [(hsocket k).2.2.2] at hopen
    rw [hready, lastControl, (hsocket k).2.2.1, ← hidle]
    exact h.told k hk hopen

/-- The RESET comes last on the stream of the worker, and the session is not ready then. -/
theorem attuned_announceReset {a : Actor} (h : Attuned p) (hreset : a ∈ p.resetsUnderway) :
    Attuned (announceReset a p) := by
  have hidle : p.acousticReady = false := by
    by_contra hready
    rw [Bool.not_eq_false] at hready
    rw [h.calm hready] at hreset
    cases hreset
  have hsocket : ∀ k, ((announceReset a p).sockets k).attached = (p.sockets k).attached ∧
      ((announceReset a p).sockets k).endpoint = (p.sockets k).endpoint := by
    intro k
    unfold announceReset
    dsimp only
    split <;> exact ⟨rfl, rfl⟩
  refine ⟨h.holds, fun k hk => ?_, h.proof, fun hq => ?_, fun k hk hopen => ?_⟩
  · rw [(hsocket k).1, (hsocket k).2]
    exact h.worker k hk
  · have hready : p.acousticReady = true := hq
    rw [hidle] at hready
    cases hready
  · have hattached := (h.worker k hk).1
    have hopen' : isOpen k p = true := by
      unfold isOpen announceReset at hopen
      dsimp only at hopen
      split at hopen
      · exact hopen
      · exact hopen
    have hlast : lastControl ((announceReset a p).sockets k) = some .reset := by
      unfold announceReset lastControl controls
      simp [hattached, hopen', controlOf, isControl, resetFrame]
    rw [hlast, show (announceReset a p).acousticReady = p.acousticReady from rfl, hidle]
    simp

/-- Moves keep what the worker knows, if no proof is taken while a reset waits for its report. -/
theorem Attuned.move {options : PortOptions} {a : Actor} (h : Attuned p) (hplaced : Placed p)
    (hmove : ReadinessMove options a p q)
    (hcalm : ∀ socket frame, Carries a socket frame → arms socket frame p = true →
      p.resetsUnderway = []) : Attuned q := by
  cases hmove with
  | greets => exact attuned_connectBrowser options h hplaced
  | joins => exact attuned_connectFips options h hplaced
  | leavesFips => exact attuned_closeFips h _
  | leaves ha hendpoint => exact attuned_closeBrowser h hendpoint
  | readies hcarries harms => exact attuned_arm h _ _ (hcalm _ _ hcarries harms)
  | disarms => exact attuned_issue options (attuned_disarm h).1 _
  | hails => exact attuned_issue options h _
  | exhausts hf => exact attuned_recovers hf h
  | resets hf =>
    obtain ⟨hdisarmed, hidle⟩ := attuned_disarm (attuned_recovers hf h)
    exact attuned_resetPorts a hdisarmed hidle
  | announces hreset => exact attuned_announceReset h hreset

end Attuned

/-- Whatever a handler of a readiness frame does, the frame makes the session ready only if it
did so before, and no reset begins. -/
theorem arms_of_move {options : PortOptions} {a : Actor} {p q : Ports} {socket : ℕ}
    {frame : FwavFrame} (hmove : ReadinessMove options a p q) (hcarries : Carries a socket frame)
    (harms : arms socket frame q = true) :
    arms socket frame p = true ∧ ∀ x ∈ q.resetsUnderway, x ∈ p.resetsUnderway := by
  have htype : frame.type = .acousticReady := by
    simp only [arms, Bool.and_eq_true, decide_eq_true_eq] at harms
    exact harms.1.1.1.1.1
  have hother : ∀ {socket' : ℕ} {frame' : FwavFrame}, Carries a socket' frame' →
      frame'.type = .acousticReady := by
    intro socket' frame' h
    rw [(carries_unique hcarries h).2]
    exact htype
  have hrecovers : ∀ {f : Ports → Ports}, ¬Recovers a f := by
    intro f hf
    have hreset := (recovers_of_carries hf hcarries).1
    rw [htype] at hreset
    cases hreset
  obtain ⟨rawData, ha, -⟩ := hcarries
  cases hmove with
  | greets h => rw [ha] at h; cases h
  | joins h => rw [ha] at h; cases h
  | leavesFips h => rw [ha] at h; cases h
  | leaves h => rw [ha] at h; cases h
  | @readies socket' frame' h _ =>
    have hready := congrArg Ground.acousticReady (ground_arm socket' frame'.payload p)
    simp only [arms, Bool.and_eq_true, Bool.not_eq_true'] at harms
    exact absurd (hready.symm.trans harms.1.1.2) (by simp)
  | disarms h hkind => rcases hkind with hkind | hkind <;> rw [hother h] at hkind <;> cases hkind
  | hails h hkind => rw [hother h] at hkind; cases hkind
  | exhausts hf => exact absurd hf hrecovers
  | resets hf => exact absurd hf hrecovers
  | announces hreset =>
    refine ⟨?_, fun x hx => List.mem_of_mem_erase hx⟩
    have hconnection : ((announceReset a p).sockets socket).connection =
        (p.sockets socket).connection :=
      view_announceReset Socket.connection (fun _ _ => rfl) a socket
    simp only [arms, hconnection] at harms ⊢
    exact harms

/-- A hello of a browser. -/
def benchHello (epoch sequence : ℕ) : RawMessage :=
  benchMessage { type := .hello, epoch, sequence, payload := [] }

/-- A readiness proof with a capability of the bench. -/
def benchReady (epoch issue : ℕ) : RawMessage :=
  benchMessage
    { type := .acousticReady
      epoch
      sequence := 0
      payload := writeWord 8 1 ++ List.replicate 32 1 ++ writeWord 8 0 ++
        List.replicate 16 (lowByte (issue + 1)) }

/-- No proof is taken while a reset waits for its report: whenever a handler acts, the frame it
handles does not make the session ready, or no reset does. -/
def ArmsInPeace (w : World) (e : Event) : Prop :=
  ∀ x ∈ carried (actorOf w e), arms x.1 x.2 w.state.ports = true →
    w.state.ports.resetsUnderway = []

instance (w : World) (e : Event) : Decidable (ArmsInPeace w e) :=
  inferInstanceAs (Decidable (∀ x ∈ carried (actorOf w e), arms x.1 x.2 w.state.ports = true →
    w.state.ports.resetsUnderway = []))

/-- In every run in which no proof is taken while a reset waits for its report, the worker knows
in every state whether the session is ready. -/
theorem workerKnows_of_armsInPeace (options : BridgeServerOptions) (events : List Event)
    (h : Along (step options) ArmsInPeace (createBridgeServer options) events) :
    WorkerKnows (run (step options) (createBridgeServer options) events).state.ports := by
  refine Attuned.workerKnows ?_
  refine bridge_invariant (I := fun b => Attuned b.ports)
    (G := fun a b => ∀ socket frame, Carries a socket frame →
      arms socket frame b.ports = true → b.ports.resetsUnderway = []) ?_ ?_ ?_ ?_ h
  · intro w e hcalm _ socket frame hcarries
    exact hcalm (socket, frame) (carried_of_carries hcarries)
  · intro a b b' _ hprepares hI hG
    have hplain := plain_prepares hprepares
    refine ⟨hI.plain hplain, fun socket frame hcarries harms => ?_⟩
    rw [hplain.arms] at harms
    have hnone := hG socket frame hcarries harms
    exact List.subset_nil.mp (fun x hx => hnone ▸ hplain.resets x hx)
  · intro a b b' hb hmove hI hG
    rcases bridge_plain_or hmove with hplain | hturn
    · refine ⟨hI.plain hplain, fun socket frame hcarries harms => ?_⟩
      rw [hplain.arms] at harms
      have hnone := hG socket frame hcarries harms
      exact List.subset_nil.mp (fun x hx => hnone ▸ hplain.resets x hx)
    · refine ⟨hI.move hb.placed hturn hG, fun socket frame hcarries harms => ?_⟩
      obtain ⟨hbefore, hresets⟩ := arms_of_move hturn hcarries harms
      have hnone := hG socket frame hcarries hbefore
      exact List.subset_nil.mp (fun x hx => hnone ▸ hresets x hx)
  · constructor <;> simp [createBridgeServer, HoldsPackets]

/-- A browser becomes ready, and then the operator resets the bridge. -/
def benchArmed : List Event :=
  [.connectFips, .connectBrowser, .resume 0 .resolved, .receive 1 (benchHello 1 0), .process 1,
    .receive 1 (benchReady 1 0), .process 1, .operatorReset 0, .beginWrite 1, .endWrite 1 true,
    .resume 0 .resolved]

/-- The worker is told of both. -/
theorem workerKnows_bench :
    Along (step benchBridge) ArmsInPeace (createBridgeServer benchBridge) benchArmed ∧
      controls ((run (step benchBridge) (createBridgeServer benchBridge) benchArmed).state.ports.sockets
        0) = [.browserArm, .browserDisarm, .reset] ∧
      WorkerKnows (run (step benchBridge) (createBridgeServer benchBridge) benchArmed).state.ports :=
  ⟨by decide +kernel, by decide +kernel,
    workerKnows_of_armsInPeace benchBridge benchArmed (by decide +kernel)⟩

/-- The operator resets the bridge; a browser connects, learns of the new epoch and becomes ready
before the report of the reset is written. -/
def benchHasty : List Event :=
  [.connectFips, .operatorReset 0, .connectBrowser, .resume 1 .resolved,
    .receive 1 (benchHello 2 0), .process 1, .receive 1 (benchReady 2 0), .process 1,
    .beginWrite 1, .endWrite 1 true, .resume 0 .resolved]

/-- The worker is told of the reset last, and the session is ready. -/
theorem not_workerKnows_hasty :
    ¬WorkerKnows (run (step benchBridge) (createBridgeServer benchBridge) benchHasty).state.ports := by
  intro h
  have htold := h 0 (by decide +kernel)
  have hready : (run (step benchBridge) (createBridgeServer benchBridge)
      benchHasty).state.ports.acousticReady = true := by decide +kernel
  have hlast : lastControl ((run (step benchBridge) (createBridgeServer benchBridge)
      benchHasty).state.ports.sockets 0) = some .reset := by decide +kernel
  rw [hlast] at htold
  exact absurd (htold.mpr hready) (by decide)

/-- The browser whose proof made the session ready owns its endpoint, and its connection is
open. -/
def ReadyIsLive (p : Ports) : Prop :=
  p.acousticReady = true → ∃ k, p.armedBy = some k ∧ openOwner p.owner p = some k

/-- Readiness belongs to the owner of the browser endpoint. -/
structure Lively (p : Ports) : Prop where
  /-- The owner is a browser whose close was not handled yet. -/
  owner : ∀ k, p.owner = some k →
    (p.sockets k).attached = true ∧ (p.sockets k).endpoint = .browser
  /-- Its proof made the session ready. -/
  live : p.acousticReady = true → ∃ k, p.armedBy = some k ∧ p.owner = some k

/-- A connection is open, unless a message of it was refused. -/
def Sits (socket : ℕ) (p : Ports) : Prop :=
  isOpen socket p = true ∨ ∃ m ∈ p.refused, m.socket = socket

/-- The browser that made the session ready sits. -/
def Seated (p : Ports) : Prop :=
  p.acousticReady = true → ∀ k, p.armedBy = some k → Sits k p

/-- No message of the browser that made the session ready was refused. -/
def Unrefused (p : Ports) : Prop :=
  p.acousticReady = true → ∀ k ∈ p.armedBy, ∀ m ∈ p.refused, m.socket ≠ k

instance (p : Ports) : Decidable (Unrefused p) :=
  inferInstanceAs (Decidable (_ → ∀ k ∈ p.armedBy, ∀ m ∈ p.refused, m.socket ≠ k))

/-- Then its connection is open. -/
theorem Lively.readyIsLive {p : Ports} (h : Lively p) (hseated : Seated p)
    (hunrefused : Unrefused p) : ReadyIsLive p := by
  intro hready
  obtain ⟨k, harmed, howner⟩ := h.live hready
  refine ⟨k, harmed, openOwner_eq_some.mpr ⟨howner, ?_⟩⟩
  rcases hseated hready k harmed with hopen | ⟨m, hm, hsocket⟩
  · exact hopen
  · exact absurd hsocket (hunrefused hready k harmed m hm)

/-- A connection sits as long as its peer does not begin to close it and its close is not
handled. -/
theorem Sits.spares {a : Actor} {socket : ℕ} {p q : Ports} (h : Sits socket p)
    (hspares : Spares a p q) (hsocket : socket < p.socketCount)
    (hbrowser : (p.sockets socket).endpoint = .browser) (hhangup : a ≠ .hangup socket)
    (hattached : (q.sockets socket).attached = true) : Sits socket q := by
  rcases h with hopen | ⟨m, hm, hsame⟩
  · rcases hspares.connected socket hsocket hbrowser hopen with hopen' | hhang | hgone | hrefused
    · exact .inl hopen'
    · exact absurd hhang hhangup
    · rw [hattached] at hgone
      cases hgone
    · exact .inr hrefused
  · exact .inr ⟨m, hspares.refused hm, hsame⟩

/-- What an actor may count on for readiness to stay with the owner. -/
structure InTime (a : Actor) (p : Ports) : Prop where
  /-- No browser is admitted while the session is ready. -/
  admits : a = .greeting p.socketCount → browserAdmissible p = true → p.acousticReady = false
  /-- A proof is taken from the owner only, and the owner sits. -/
  owned : ∀ socket frame, Carries a socket frame → arms socket frame p = true →
    p.owner = some socket ∧ Sits socket p
  /-- The connection that made the session ready does not begin to close. -/
  stays : ∀ k, a = .hangup k → p.acousticReady = true → p.armedBy ≠ some k
  /-- After the close of its connection a frame does not end readiness. -/
  late : ∀ socket frame, Carries a socket frame → (p.sockets socket).attached = false →
    p.acousticReady = true →
    frame.type ≠ .error ∧ frame.type ≠ .acousticDisarm ∧ frame.type ≠ .reset

section Lively

variable {p q : Ports}

/-- Changes that concern neither readiness nor the owner. -/
theorem Lively.of_same (h : Lively p) (hready : q.acousticReady = p.acousticReady)
    (harmed : q.armedBy = p.armedBy) (howner : q.owner = p.owner)
    (hsockets : ∀ k, p.owner = some k → (q.sockets k).attached = (p.sockets k).attached ∧
      (q.sockets k).endpoint = (p.sockets k).endpoint) : Lively q := by
  refine ⟨fun k hk => ?_, fun hq => ?_⟩
  · rw [howner] at hk
    rw [(hsockets k hk).1, (hsockets k hk).2]
    exact h.owner k hk
  · rw [harmed, howner]
    exact h.live (hready ▸ hq)

/-- The invariant rests on nothing that a plain change touches. -/
theorem Lively.plain (h : Lively p) (hplain : Plain p q) : Lively q :=
  h.of_same hplain.acousticReady hplain.armedBy hplain.owner
    (fun k _ => ⟨hplain.attached k, hplain.endpoint k⟩)

/-- The next place to be taken is not the owner's. -/
theorem Lively.owner_ne (h : Lively p) (hplaced : Placed p) : p.owner ≠ some p.socketCount := by
  intro howner
  have := hplaced p.socketCount (.inl (h.owner _ howner).1)
  omega

/-- Another socket than that of the owner changes. -/
theorem Lively.of_other (h : Lively p) (hready : q.acousticReady = p.acousticReady)
    (harmed : q.armedBy = p.armedBy) (howner : q.owner = p.owner) {socket : ℕ}
    (hother : p.owner ≠ some socket) (hsockets : ∀ k ≠ socket, q.sockets k = p.sockets k) :
    Lively q := by
  refine h.of_same hready harmed howner (fun k hk => ?_)
  have hne : k ≠ socket := by
    rintro rfl
    exact hother hk
  rw [hsockets k hne]
  exact ⟨rfl, rfl⟩

/-- A browser that is turned away owns nothing. -/
theorem lively_turnAway (h : Lively p) (hplaced : Placed p) : Lively (turnAway p) :=
  h.of_other rfl rfl rfl (h.owner_ne hplaced) (fun _ hk => Function.update_of_ne hk _ _)

/-- A browser that comes in becomes the owner where the session is not ready. -/
theorem lively_connectBrowser (options : PortOptions) (h : Lively p) (hplaced : Placed p)
    (hidle : browserAdmissible p = true → p.acousticReady = false) :
    Lively (connectBrowser options p) := by
  unfold connectBrowser
  split
  · exact lively_turnAway h hplaced
  · next hadmissible =>
    rw [Bool.not_eq_true', Bool.not_eq_false] at hadmissible
    have hnot := hidle hadmissible
    have hadmitted : Lively (admitBrowser p) := by
      refine ⟨fun k hk => ?_, fun hq => ?_⟩
      · cases hk
        simp [admitBrowser]
      · have hready : p.acousticReady = true := hq
        rw [hnot] at hready
        cases hready
    split
    · exact hadmitted.plain (plain_relayed (relayed_flushToBrowser options _))
    · exact hadmitted

/-- What the worker is told changes nothing for the browser. -/
theorem lively_notify (armed : Bool) (h : Lively p) : Lively (notifyFipsBrowserState armed p) := by
  obtain ⟨hground, -, -, hsockets⟩ := notify_same armed p
  refine h.of_same (congrArg Ground.acousticReady hground) (congrArg Ground.armedBy hground)
    (congrArg Ground.owner hground) (fun k _ => ?_)
  exact ⟨congrArg Footing.attached (hsockets k).1, congrArg Footing.endpoint (hsockets k).1⟩

/-- A worker that comes in changes nothing for the browser. -/
theorem lively_connectFips (options : PortOptions) (h : Lively p) (hplaced : Placed p) :
    Lively (connectFips options p) := by
  unfold connectFips
  split
  · exact lively_turnAway h hplaced
  · have hadmitted : Lively (admitFips p) :=
      h.of_other rfl rfl rfl (h.owner_ne hplaced) (fun _ hk => Function.update_of_ne hk _ _)
    have hflushed := hadmitted.plain (plain_relayed (relayed_flushToFips options _))
    dsimp only
    split
    · exact lively_notify true hflushed
    · exact hflushed

/-- A worker that is gone changes nothing for the browser. -/
theorem lively_closeFips (h : Lively p) {socket : ℕ}
    (hendpoint : (p.sockets socket).endpoint = .fips) : Lively (closeFips socket p) := by
  have hother : p.owner ≠ some socket := by
    intro howner
    have hbrowser := (h.owner socket howner).2
    rw [hendpoint] at hbrowser
    cases hbrowser
  have hdetached : Lively (detach socket p) :=
    h.of_other rfl rfl rfl hother (fun _ hk => Function.update_of_ne hk _ _)
  unfold closeFips
  dsimp only
  split
  · exact ⟨hdetached.owner, hdetached.live⟩
  · exact hdetached

/-- The end of readiness, as far as the owner is concerned. -/
theorem disarm_same (p : Ports) : (disarmAcousticSession p).acousticReady = false ∧
    (disarmAcousticSession p).owner = p.owner ∧
    (disarmAcousticSession p).socketCount = p.socketCount ∧
    (disarmAcousticSession p).issueCount = p.issueCount ∧
    (disarmAcousticSession p).armings = p.armings ∧
    ∀ k, footing ((disarmAcousticSession p).sockets k) = footing (p.sockets k) := by
  unfold disarmAcousticSession
  split
  · next hready =>
    rw [Bool.not_eq_true'] at hready
    exact ⟨hready, rfl, rfl, rfl, rfl, fun _ => rfl⟩
  · obtain ⟨hground, -, -, hsockets⟩ :=
      notify_same false { p with acousticReady := false, armedBy := none }
    dsimp only
    generalize notifyFipsBrowserState false
      { p with acousticReady := false, armedBy := none } = q at hground hsockets
    have hplain := plain_relayed (relayed_clearQueues { q with acousticReadinessProof := none })
    refine ⟨hplain.acousticReady.trans (congrArg Ground.acousticReady hground),
      hplain.owner.trans (congrArg Ground.owner hground),
      hplain.socketCount.trans (congrArg Ground.socketCount hground),
      hplain.issueCount.trans (congrArg Ground.issueCount hground),
      hplain.armings.trans (congrArg Ground.armings hground), fun k => ?_⟩
    exact (hplain.footing k).trans (hsockets k).1

/-- Once disarmed, all that is asked is that the owner is a browser that is attached. -/
theorem lively_disarm (h : ∀ k, p.owner = some k →
      (p.sockets k).attached = true ∧ (p.sockets k).endpoint = .browser) :
    Lively (disarmAcousticSession p) := by
  obtain ⟨hready, howner, -, -, -, hsockets⟩ := disarm_same p
  refine ⟨fun k hk => ?_, fun hq => ?_⟩
  · rw [howner] at hk
    have hattached := congrArg Footing.attached (hsockets k)
    have hendpoint := congrArg Footing.endpoint (hsockets k)
    exact ⟨hattached.trans (h k hk).1, hendpoint.trans (h k hk).2⟩
  · rw [hready] at hq
    cases hq

/-- A browser that is gone owns nothing and has made nothing ready. -/
theorem lively_closeBrowser (h : Lively p) (socket : ℕ) : Lively (closeBrowser socket p).2 := by
  unfold closeBrowser
  dsimp only
  split
  · next hother => exact h.of_other rfl rfl rfl hother (fun _ hk => Function.update_of_ne hk _ _)
  · have hreleased : Lively (releaseOwner (detach socket p)) :=
      lively_disarm (fun k hk => by cases hk)
    split
    · exact ⟨hreleased.owner, hreleased.live⟩
    · split
      · exact hreleased
      · exact ⟨hreleased.owner, hreleased.live⟩

/-- What a connection keeps for itself does not make it the owner. -/
theorem lively_modifyConnection (h : Lively p) (socket : ℕ)
    (f : BrowserConnectionState → BrowserConnectionState) :
    Lively (modifyConnection socket f p) := by
  refine h.of_same rfl rfl rfl (fun k _ => ?_)
  unfold modifyConnection
  rw [sockets_modifySocket]
  split
  · next heq => rw [heq]; exact ⟨rfl, rfl⟩
  · exact ⟨rfl, rfl⟩

/-- A capability is issued whether or not the session is ready. -/
theorem lively_issue (options : PortOptions) (h : Lively p) (socket : ℕ) :
    Lively (issueAcousticCapability options socket p) := by
  have hcounted : Lively { p with issueCount := p.issueCount + 1 } := ⟨h.owner, h.live⟩
  unfold issueAcousticCapability
  dsimp only
  split
  · exact (lively_modifyConnection hcounted socket _).plain (plain_send socket rfl _)
  · exact lively_modifyConnection hcounted socket _

/-- Taking the bridge out of a state that needs a reset leaves the owner where it is. -/
theorem lively_recovers {a : Actor} {f : Ports → Ports} (hf : Recovers a f) (h : Lively p) :
    Lively (f p) := by
  rcases hf with ⟨-, rfl⟩ | ⟨socket, frame, -, -, rfl⟩
  · exact h
  · exact lively_modifyConnection h socket _

/-- The browser that makes the session ready is the owner at that time. -/
theorem lively_arm (h : Lively p) {socket : ℕ} (payload : Bytes) (howner : p.owner = some socket) :
    Lively (armAcousticSession socket payload p) := by
  have hspent := lively_modifyConnection h socket
    (fun c => { c with acousticCapabilityUsed := true })
  unfold armAcousticSession
  exact lively_notify true ⟨hspent.owner, fun _ => ⟨socket, rfl, howner⟩⟩

/-- A reset leaves the owner where it is. -/
theorem lively_resetPorts (a : Actor) (h : Lively p) : Lively (resetPorts a p) := by
  refine ⟨fun k hk => ?_, fun hq => by cases hq⟩
  rw [view_resetPorts Socket.attached (fun _ _ _ _ => rfl) a p k,
    view_resetPorts Socket.endpoint (fun _ _ _ _ => rfl) a p k]
  exact h.owner k hk

/-- Announcing a reset leaves the owner where it is. -/
theorem lively_announceReset (a : Actor) (h : Lively p) : Lively (announceReset a p) := by
  refine h.of_same rfl rfl rfl (fun k _ => ?_)
  unfold announceReset
  dsimp only
  split <;> exact ⟨rfl, rfl⟩

/-- Every move keeps readiness with the owner, if its actor is in time. -/
theorem Lively.move {options : PortOptions} {a : Actor} (h : Lively p) (hplaced : Placed p)
    (hmove : ReadinessMove options a p q) (htime : InTime a p) : Lively q := by
  cases hmove with
  | greets ha => exact lively_connectBrowser options h hplaced (htime.admits ha)
  | joins => exact lively_connectFips options h hplaced
  | leavesFips ha hendpoint => exact lively_closeFips h hendpoint
  | leaves => exact lively_closeBrowser h _
  | readies hcarries harms => exact lively_arm h _ (htime.owned _ _ hcarries harms).1
  | disarms => exact lively_issue options (lively_disarm h.owner) _
  | hails => exact lively_issue options h _
  | exhausts hf => exact lively_recovers hf h
  | resets hf => exact lively_resetPorts a (lively_disarm (lively_recovers hf h).owner)
  | announces => exact lively_announceReset a h

/-- Issuing a capability leaves readiness and the owner alone. -/
theorem issue_same (options : PortOptions) (socket : ℕ) (p : Ports) :
    (issueAcousticCapability options socket p).acousticReady = p.acousticReady ∧
      (issueAcousticCapability options socket p).owner = p.owner ∧
      ∀ k, ((issueAcousticCapability options socket p).sockets k).attached =
        (p.sockets k).attached := by
  have hsocket : ∀ k, ((modifyConnection socket (fun c => { c with
      acousticCapability := options.randomBytes p.issueCount
      acousticCapabilityUsed := false
      issue := some p.issueCount }) { p with issueCount := p.issueCount + 1 }).sockets k).attached =
      (p.sockets k).attached :=
    view_modifyConnection Socket.attached (fun _ _ => rfl) socket _ _
  unfold issueAcousticCapability
  dsimp only
  split
  · have hnone : controlOf (.acousticCapability p.epoch (options.randomBytes p.issueCount)) =
        none := rfl
    have hplain := plain_send socket hnone (modifyConnection socket (fun c => { c with
        acousticCapability := options.randomBytes p.issueCount
        acousticCapabilityUsed := false
        issue := some p.issueCount }) { p with issueCount := p.issueCount + 1 })
    exact ⟨hplain.acousticReady, hplain.owner, fun k => (hplain.attached k).trans (hsocket k)⟩
  · exact ⟨rfl, rfl, hsocket⟩

/-- What the handler of a frame does leaves the owner and the connections alone, and makes the
session ready only if the frame is a proof that does so. -/
theorem handler_same {options : PortOptions} {a : Actor} {socket : ℕ} {frame : FwavFrame}
    (hmove : ReadinessMove options a p q) (hcarries : Carries a socket frame) :
    q.owner = p.owner ∧ (∀ k, (q.sockets k).attached = (p.sockets k).attached) ∧
      (q.acousticReady = p.acousticReady ∨ arms socket frame p = true ∨
        q.acousticReady = false ∧ (frame.type = .error ∨ frame.type = .acousticDisarm ∨
          frame.type = .reset)) := by
  have hsame : ∀ {socket' : ℕ} {frame' : FwavFrame}, Carries a socket' frame' →
      socket' = socket ∧ frame' = frame := carries_unique hcarries
  have hrecovers : ∀ {f : Ports → Ports}, Recovers a f → frame.type = .reset ∧
      (f p).owner = p.owner ∧ (f p).acousticReady = p.acousticReady ∧
      ∀ k, ((f p).sockets k).attached = (p.sockets k).attached := by
    intro f hf
    obtain ⟨hreset, rfl⟩ := recovers_of_carries hf hcarries
    exact ⟨hreset, rfl, rfl, view_modifyConnection Socket.attached (fun _ _ => rfl) socket _ p⟩
  obtain ⟨rawData, ha, -⟩ := hcarries
  cases hmove with
  | greets h => rw [ha] at h; cases h
  | joins h => rw [ha] at h; cases h
  | leavesFips h => rw [ha] at h; cases h
  | leaves h => rw [ha] at h; cases h
  | @readies socket' frame' h harms =>
    have hground := ground_arm socket' frame'.payload p
    obtain ⟨rfl, rfl⟩ := hsame h
    refine ⟨congrArg Ground.owner hground, fun k => ?_, .inr (.inl harms)⟩
    have htold := (notify_same true { modifyConnection socket'
      (fun c => { c with acousticCapabilityUsed := true }) p with
        acousticReadinessProof := some frame'.payload
        acousticReady := true
        armedBy := some socket'
        armings := p.armings ++ (p.sockets socket').connection.issue.toList }).2.2.2 k
    have hattached := congrArg Footing.attached htold.1
    have hspent := view_modifyConnection Socket.attached (fun _ _ => rfl) socket'
      (fun c => { c with acousticCapabilityUsed := true }) p k
    exact hattached.trans hspent
  | @disarms socket' frame' h hkind =>
    obtain ⟨rfl, rfl⟩ := hsame h
    obtain ⟨hready, howner, -, -, -, hsockets⟩ := disarm_same p
    obtain ⟨hready', howner', hattached⟩ := issue_same options socket' (disarmAcousticSession p)
    refine ⟨howner'.trans howner, fun k => (hattached k).trans
      (congrArg Footing.attached (hsockets k)), .inr (.inr ⟨hready'.trans hready, ?_⟩)⟩
    exact hkind.imp id .inl
  | @hails socket' frame' h hkind =>
    obtain ⟨hready, howner, hattached⟩ := issue_same options socket' p
    exact ⟨howner, hattached, .inl hready⟩
  | exhausts hf =>
    obtain ⟨-, howner, hready, hattached⟩ := hrecovers hf
    exact ⟨howner, hattached, .inl hready⟩
  | @resets f hf =>
    obtain ⟨hreset, howner, -, hattached⟩ := hrecovers hf
    obtain ⟨-, howner', -, -, -, hsockets⟩ := disarm_same (f p)
    refine ⟨howner'.trans howner, fun k => ?_, .inr (.inr ⟨rfl, .inr (.inr hreset)⟩)⟩
    have hrenewed := view_resetPorts Socket.attached (fun _ _ _ _ => rfl) a
      (disarmAcousticSession (f p)) k
    exact (hrenewed.trans (congrArg Footing.attached (hsockets k))).trans (hattached k)
  | announces => exact ⟨rfl, view_announceReset Socket.attached (fun _ _ => rfl) a, .inl rfl⟩

/-- A browser is admitted as before, if its endpoint and the leave to reconnect are as before. -/
theorem admissible_same (howner : q.owner = p.owner) (hclaimed : q.epochClaimed = p.epochClaimed)
    (hallowed : q.reconnectAllowed = p.reconnectAllowed)
    (hstates : ∀ k, (q.sockets k).readyState = (p.sockets k).readyState) :
    browserAdmissible q = browserAdmissible p := by
  have hopen : openOwner q.owner q = openOwner p.owner p := by
    unfold openOwner isOpen
    simp only [howner, hstates]
  simp only [browserAdmissible, hopen, hclaimed, hallowed]

/-- What a greeting does before it admits its browser does not concern that. Of its moves only the
admission adds an endpoint. -/
theorem greeting_move {options : PortOptions} {k : ℕ}
    (h : PortMove options (.greeting k) p q) : k < q.socketCount ∨
      q.socketCount = p.socketCount ∧ q.acousticReady = p.acousticReady ∧
        browserAdmissible q = browserAdmissible p := by
  have hrelayed : Relayed p q → k < q.socketCount ∨
      q.socketCount = p.socketCount ∧ q.acousticReady = p.acousticReady ∧
        browserAdmissible q = browserAdmissible p := by
    intro h
    refine .inr ⟨h.socketCount, h.acousticReady, admissible_same h.owner h.epochClaimed
      h.reconnectAllowed (fun j => ?_)⟩
    obtain ⟨frames, -, hj⟩ := h.said j
    rw [hj]
  have hcarries : ∀ {socket : ℕ} {frame : FwavFrame}, ¬Carries (.greeting k) socket frame := by
    rintro socket frame ⟨rawData, ha, -⟩
    cases ha
  have hmodify : ∀ {socket : ℕ} {f : Socket → Socket},
      q = modifySocket socket f p → (∀ j, (f j).readyState = j.readyState) →
      k < q.socketCount ∨ q.socketCount = p.socketCount ∧
        q.acousticReady = p.acousticReady ∧ browserAdmissible q = browserAdmissible p := by
    rintro socket f rfl hf
    exact .inr ⟨rfl, rfl,
      admissible_same rfl rfl rfl (view_modifySocket Socket.readyState hf socket p)⟩
  cases h with
  | greets ha =>
    left
    cases ha
    have hcount : (connectBrowser options p).socketCount = p.socketCount + 1 := by
      unfold connectBrowser
      split
      · rfl
      · split
        · exact (relayed_flushToBrowser options (admitBrowser p)).socketCount
        · rfl
    omega
  | joins ha => cases ha
  | receives ha => cases ha
  | notes hf => exact hmodify rfl (fun _ => rfl)
  | rejects socket h => rcases h with ha | ⟨⟨message, ha⟩, -⟩ <;> cases ha
  | leavesFips ha => cases ha
  | leaves ha => cases ha
  | retries ha => cases ha
  | submits now ha => cases ha
  | answers now h => exact absurd h.message hcarries
  | readies now h => exact absurd h.message hcarries
  | disarms h => exact absurd h.message hcarries
  | hails h => exact absurd h.message hcarries
  | takes h => exact absurd h.message hcarries
  | forwards h => exact absurd h hcarries
  | @forwardFails thrown frame now htype h =>
    have hpacket := relayed_acceptBrowserPacket options now p htype
    rw [h] at hpacket
    exact hrelayed hpacket
  | errs h => exact absurd h hcarries
  | exhausts hf =>
    rcases hf with ⟨⟨call, hcall⟩, -⟩ | ⟨socket, frame, h, -⟩
    · cases hcall
    · exact absurd h hcarries
  | resets hf =>
    rcases hf with ⟨⟨call, hcall⟩, -⟩ | ⟨socket, frame, h, -⟩
    · cases hcall
    · exact absurd h hcarries
  | endsReset => exact .inr ⟨rfl, rfl, rfl⟩
  | announces =>
    exact .inr ⟨rfl, rfl, admissible_same rfl rfl rfl
      (view_announceReset Socket.readyState (fun _ _ => rfl) _)⟩
  | restarts h => exact absurd h hcarries
  | flushes => exact hrelayed (relayed_flushToBrowser options p)
  | enqueues frame now => exact hrelayed (relayed_enqueue frame now p)
  | tells socket => exact hmodify rfl (fun _ => rfl)
  | broadcasts =>
    exact .inr ⟨rfl, rfl, admissible_same rfl rfl rfl
      (view_broadcast Socket.readyState (fun _ => rfl) _)⟩
  | refuses ha => cases ha

/-- What an actor may count on is not undone by a change of the ports that spares others. -/
theorem InTime.of_same {a : Actor} (h : InTime a p) (hlively : Lively p) (hplaced : Placed p)
    (hspares : Spares a p q)
    (hadmits : a = .greeting q.socketCount → browserAdmissible q = true →
      q.acousticReady = false)
    (hready : ∀ socket frame, Carries a socket frame → arms socket frame q = true →
      arms socket frame p = true)
    (hlate : ∀ socket frame, Carries a socket frame → q.acousticReady = true →
      p.acousticReady = true ∨ frame.type = .acousticReady)
    (hhangup : ∀ k, a = .hangup k → q.acousticReady = true → q.armedBy = some k →
      p.acousticReady = true ∧ p.armedBy = some k)
    (howner : (∃ socket frame, Carries a socket frame) → q.owner = p.owner ∧
      ∀ k, (q.sockets k).attached = (p.sockets k).attached) : InTime a q := by
  refine ⟨hadmits, fun socket frame hcarries harms => ?_, fun k ha hq harmed => ?_,
    fun socket frame hcarries hgone hq => ?_⟩
  · obtain ⟨hsame, hattached⟩ := howner ⟨socket, frame, hcarries⟩
    obtain ⟨howns, hsits⟩ := h.owned socket frame hcarries (hready socket frame hcarries harms)
    obtain ⟨hadmitted, hbrowser⟩ := hlively.owner socket howns
    refine ⟨hsame.trans howns, hsits.spares hspares (hplaced socket (.inl hadmitted)) hbrowser ?_
      ((hattached socket).trans hadmitted)⟩
    obtain ⟨rawData, ha, -⟩ := hcarries
    rw [ha]
    nofun
  · obtain ⟨hp, harmed'⟩ := hhangup k ha hq harmed
    exact h.stays k ha hp harmed'
  · rw [(howner ⟨socket, frame, hcarries⟩).2] at hgone
    rcases hlate socket frame hcarries hq with hp | htype
    · exact h.late socket frame hcarries hgone hp
    · rw [htype]
      simp

/-- What holds when a greeting begins holds when it lets the browser in. -/
theorem admits_of_greeting {k : ℕ} (h : InTime (.greeting k) p)
    (hmove : k < q.socketCount ∨ q.socketCount = p.socketCount ∧
      q.acousticReady = p.acousticReady ∧ browserAdmissible q = browserAdmissible p)
    (hk : Actor.greeting k = .greeting q.socketCount)
    (hadmissible : browserAdmissible q = true) : q.acousticReady = false := by
  cases hk
  rcases hmove with hlt | ⟨hcount, hready, hsame⟩
  · exact absurd hlt (lt_irrefl _)
  · rw [hready]
    exact h.admits (by rw [hcount]) (hsame ▸ hadmissible)

/-- A greeting has let its browser in already, or has changed nothing that admits it. -/
theorem greeting_bridge {options : BridgeServerOptions} {k : ℕ} {b b' : Bridge}
    (h : Move options False (.greeting k) b b') : k < b'.ports.socketCount ∨
      b'.ports.socketCount = b.ports.socketCount ∧
        b'.ports.acousticReady = b.ports.acousticReady ∧
        browserAdmissible b'.ports = browserAdmissible b.ports := by
  have hsend : ∀ (socket : ℕ) (message : Outbound),
      browserAdmissible (send socket message b.ports) = browserAdmissible b.ports :=
    fun socket _ => admissible_same rfl rfl rfl
      (view_send Socket.readyState (fun _ => rfl) socket b.ports)
  cases h with
  | ports h => exact greeting_move h
  | trial => exact .inr ⟨rfl, rfl, rfl⟩
  | reads => exact .inr ⟨rfl, rfl, rfl⟩
  | plays encoded =>
    exact .inr ⟨rfl, rfl, admissible_same rfl rfl rfl
      (view_broadcast Socket.readyState (fun _ => rfl) _)⟩
  | results socket => exact .inr ⟨rfl, rfl, hsend _ _⟩
  | answers socket => exact .inr ⟨rfl, rfl, hsend _ _⟩

/-- The session is as ready as before, by the same browser. -/
def AsReady (p q : Ports) : Prop := q.acousticReady = p.acousticReady ∧ q.armedBy = p.armedBy

/-- A plain change leaves readiness alone. -/
theorem asReady_plain (h : Plain p q) : AsReady p q := ⟨h.acousticReady, h.armedBy⟩

/-- A browser that comes in changes nothing about readiness by itself. -/
theorem asReady_connectBrowser (options : PortOptions) (p : Ports) :
    AsReady p (connectBrowser options p) := by
  unfold connectBrowser
  split
  · exact ⟨rfl, rfl⟩
  · split
    · exact asReady_plain (p := admitBrowser p) (plain_relayed (relayed_flushToBrowser options _))
    · exact ⟨rfl, rfl⟩

/-- Nor does a worker that comes in. -/
theorem asReady_connectFips (options : PortOptions) (p : Ports) :
    AsReady p (connectFips options p) := by
  unfold connectFips
  split
  · exact ⟨rfl, rfl⟩
  · have hflushed := asReady_plain (plain_relayed (relayed_flushToFips options (admitFips p)))
    dsimp only
    split
    · obtain ⟨hground, -⟩ := notify_same true
        (flushPacketQueue options .browserToFips (admitFips p))
      exact ⟨(congrArg Ground.acousticReady hground).trans hflushed.1,
        (congrArg Ground.armedBy hground).trans hflushed.2⟩
    · exact hflushed

/-- A worker that is gone leaves the session as ready as it was. -/
theorem asReady_closeFips (socket : ℕ) (p : Ports) : AsReady p (closeFips socket p) := by
  unfold closeFips
  dsimp only
  split <;> exact ⟨rfl, rfl⟩

/-- A capability is no proof. -/
theorem asReady_issue (options : PortOptions) (socket : ℕ) (p : Ports) :
    AsReady p (issueAcousticCapability options socket p) := by
  unfold issueAcousticCapability
  dsimp only
  split <;> exact ⟨rfl, rfl⟩

/-- Taking the bridge out of a state that needs a reset arms and disarms nothing. -/
theorem asReady_recovers {a : Actor} {f : Ports → Ports} (hf : Recovers a f) (p : Ports) :
    AsReady p (f p) := by
  rcases hf with ⟨-, rfl⟩ | ⟨socket, frame, -, -, rfl⟩ <;> exact ⟨rfl, rfl⟩

/-- The close of a browser ends readiness, or the browser does not own its endpoint. -/
theorem asReady_closeBrowser (socket : ℕ) (p : Ports) :
    (closeBrowser socket p).2.acousticReady = false ∨ AsReady p (closeBrowser socket p).2 := by
  have hreleased : (releaseOwner (detach socket p)).acousticReady = false :=
    (disarm_same { clearPendingBrowserAdmission (detach socket p) with owner := none }).1
  unfold closeBrowser
  dsimp only
  split
  · exact .inr ⟨rfl, rfl⟩
  · split
    · exact .inl hreleased
    · split <;> exact .inl hreleased

/-- Whoever made the session ready did so before a move, or the move takes its proof. -/
theorem armed_of_move {options : PortOptions} {a : Actor} {k : ℕ}
    (hmove : ReadinessMove options a p q) (hready : q.acousticReady = true)
    (harmed : q.armedBy = some k) :
    (p.acousticReady = true ∧ p.armedBy = some k) ∨
      ∃ frame, Carries a k frame ∧ arms k frame p = true := by
  have hsame : AsReady p q → p.acousticReady = true ∧ p.armedBy = some k :=
    fun h => ⟨h.1 ▸ hready, h.2 ▸ harmed⟩
  cases hmove with
  | greets => exact .inl (hsame (asReady_connectBrowser options p))
  | joins => exact .inl (hsame (asReady_connectFips options p))
  | leavesFips => exact .inl (hsame (asReady_closeFips _ p))
  | leaves =>
    rcases asReady_closeBrowser _ p with hfalse | h
    · rw [hfalse] at hready
      cases hready
    · exact .inl (hsame h)
  | @readies socket frame hcarries harms =>
    have harmed' := congrArg Ground.armedBy (ground_arm socket frame.payload p)
    cases harmed'.symm.trans harmed
    exact .inr ⟨frame, hcarries, harms⟩
  | disarms =>
    rw [(asReady_issue options _ _).1, (disarm_same p).1] at hready
    cases hready
  | hails => exact .inl (hsame (asReady_issue options _ p))
  | exhausts hf => exact .inl (hsame (asReady_recovers hf p))
  | resets hf => cases hready
  | announces => exact .inl (hsame ⟨rfl, rfl⟩)

/-- A change of the ports that spares others keeps the browser that made the session ready in its
seat, as long as it is the owner. -/
theorem Seated.change {a : Actor} (h : Seated p) (hlively : Lively p) (hplaced : Placed p)
    (hspares : Spares a p q) (hlively' : Lively q) (htime : InTime a p)
    (harmed : ∀ k, q.acousticReady = true → q.armedBy = some k →
      (p.acousticReady = true ∧ p.armedBy = some k) ∨
        ∃ frame, Carries a k frame ∧ arms k frame p = true) : Seated q := by
  intro hready k hk
  have hattached : (q.sockets k).attached = true := by
    obtain ⟨k', hk', howner⟩ := hlively'.live hready
    cases hk'.symm.trans hk
    exact (hlively'.owner k howner).1
  have hkeep : p.owner = some k → Sits k p → a ≠ .hangup k → Sits k q := by
    intro howner hsits hhangup
    obtain ⟨hadmitted, hbrowser⟩ := hlively.owner k howner
    exact hsits.spares hspares (hplaced k (.inl hadmitted)) hbrowser hhangup hattached
  rcases harmed k hready hk with ⟨hp, hk'⟩ | ⟨frame, hcarries, harms⟩
  · obtain ⟨k'', hk'', howner⟩ := hlively.live hp
    cases hk''.symm.trans hk'
    exact hkeep howner (h hp k hk') (fun ha => htime.stays k ha hp hk')
  · obtain ⟨howner, hsits⟩ := htime.owned k frame hcarries harms
    obtain ⟨rawData, ha, -⟩ := hcarries
    exact hkeep howner hsits (by rw [ha]; nofun)

/-- What an actor may count on is not undone by its own moves. -/
theorem InTime.move {options : BridgeServerOptions} {a : Actor} {b b' : Bridge}
    (h : InTime a b.ports) (hlively : Lively b.ports) (hb : Standing b)
    (hmove : Move options False a b b') : InTime a b'.ports := by
  have hadmits : a = .greeting b'.ports.socketCount → browserAdmissible b'.ports = true →
      b'.ports.acousticReady = false := by
    rintro rfl hadmissible
    exact admits_of_greeting h (greeting_bridge hmove) rfl hadmissible
  rcases bridge_plain_or hmove with hplain | hturn
  · exact h.of_same hlively hb.placed hmove.spares hadmits
      (fun socket frame _ harms => hplain.arms socket frame ▸ harms)
      (fun _ _ _ hq => .inl (hplain.acousticReady ▸ hq))
      (fun _ _ hq harmed => ⟨hplain.acousticReady ▸ hq, hplain.armedBy ▸ harmed⟩)
      (fun _ => ⟨hplain.owner, hplain.attached⟩)
  · refine h.of_same hlively hb.placed hmove.spares hadmits
      (fun socket frame hcarries harms => (arms_of_move hturn hcarries harms).1)
      (fun socket frame hcarries hq => ?_) (fun k ha hq harmed => ?_) ?_
    · rcases (handler_same hturn hcarries).2.2 with hsame | harms | ⟨hfalse, -⟩
      · exact .inl (hsame ▸ hq)
      · simp only [arms, Bool.and_eq_true, decide_eq_true_eq] at harms
        exact .inr harms.1.1.1.1.1
      · rw [hfalse] at hq
        cases hq
    · rcases armed_of_move hturn hq harmed with hbefore | ⟨frame, ⟨rawData, hhandler, -⟩, -⟩
      · exact hbefore
      · rw [ha] at hhandler
        cases hhandler
    · rintro ⟨socket, frame, hcarries⟩
      exact ⟨(handler_same hturn hcarries).1, (handler_same hturn hcarries).2.1⟩

/-- After the close of its connection a frame has no effect on readiness. To arm takes the owner,
and what would disarm is ruled out in time. -/
theorem ready_of_late {options : PortOptions} {a : Actor} {socket : ℕ} {message : RawMessage}
    (ha : a = .handler socket message) (hmove : ReadinessMove options a p q) (h : Lively p)
    (htime : InTime a p) (hgone : (p.sockets socket).attached = false) :
    q.acousticReady = p.acousticReady ∧ (q.sockets socket).attached = false := by
  have hsocket : ∀ {socket' : ℕ} {frame : FwavFrame}, Carries a socket' frame →
      socket' = socket := by
    rintro socket' frame ⟨rawData, ha', -⟩
    rw [ha] at ha'
    cases ha'
    rfl
  by_cases hcarries : ∃ socket' frame, Carries a socket' frame
  · obtain ⟨socket', frame, hcarries⟩ := hcarries
    cases hsocket hcarries
    refine ⟨?_, ((handler_same hmove hcarries).2.1 socket).trans hgone⟩
    rcases (handler_same hmove hcarries).2.2 with hsame | harms | ⟨hfalse, hkind⟩
    · exact hsame
    · have hattached := (h.owner socket (htime.owned socket frame hcarries harms).1).1
      rw [hgone] at hattached
      cases hattached
    · rw [hfalse]
      cases hready : p.acousticReady with
      | false => rfl
      | true =>
        obtain ⟨herror, hdisarm, hreset⟩ := htime.late socket frame hcarries hgone hready
        rcases hkind with hkind | hkind | hkind
        · exact absurd hkind herror
        · exact absurd hkind hdisarm
        · exact absurd hkind hreset
  · have hrecovers : ∀ {f : Ports → Ports}, ¬Recovers a f := by
      rintro f (⟨⟨call, hcall⟩, -⟩ | ⟨socket', frame', h, -⟩)
      · rw [ha] at hcall
        cases hcall
      · exact hcarries ⟨socket', frame', h⟩
    cases hmove with
    | greets h => rw [ha] at h; cases h
    | joins h => rw [ha] at h; cases h
    | leavesFips h => rw [ha] at h; cases h
    | leaves h => rw [ha] at h; cases h
    | readies h => exact absurd ⟨_, _, h⟩ hcarries
    | disarms h => exact absurd ⟨_, _, h⟩ hcarries
    | hails h => exact absurd ⟨_, _, h⟩ hcarries
    | exhausts hf => exact absurd hf hrecovers
    | resets hf => exact absurd hf hrecovers
    | announces =>
      exact ⟨rfl, (view_announceReset Socket.attached (fun _ _ => rfl) a _).trans hgone⟩

end Lively

/-- While the session is ready, no message of the browser that made it so was refused, and its
connection does not begin to close; a proof is taken only from the open owner of the browser
endpoint; and after the close of a connection none of its frames that end readiness is handled
while the session is ready. -/
def HandledInTime (w : World) (e : Event) : Prop :=
  Unrefused w.state.ports ∧
  (w.state.ports.acousticReady = true → ∀ k ∈ w.state.ports.armedBy,
    actorOf w e ≠ .hangup k) ∧
  ∀ x ∈ carried (actorOf w e),
    (arms x.1 x.2 w.state.ports = true →
      openOwner w.state.ports.owner w.state.ports = some x.1) ∧
    ((w.state.ports.sockets x.1).attached = false → w.state.ports.acousticReady = true →
      x.2.type ≠ .error ∧ x.2.type ≠ .acousticDisarm ∧ x.2.type ≠ .reset)

instance (w : World) (e : Event) : Decidable (HandledInTime w e) :=
  inferInstanceAs (Decidable (_ ∧ (_ → ∀ k ∈ w.state.ports.armedBy,
    actorOf w e ≠ .hangup k) ∧ ∀ x ∈ carried (actorOf w e), _))

/-- The condition on a step is what its actor may count on at its beginning. -/
theorem HandledInTime.inTime {w : World} {e : Event} (h : HandledInTime w e)
    (hlively : Lively w.state.ports) (hseated : Seated w.state.ports) :
    InTime (actorOf w e) w.state.ports := by
  obtain ⟨hunrefused, hbegins, hcarried⟩ := h
  refine ⟨fun _ hadmissible => ?_, fun socket frame hcarries harms => ?_,
    fun k ha hready harmed => hbegins hready k harmed ha,
    fun socket frame hcarries => (hcarried (socket, frame) (carried_of_carries hcarries)).2⟩
  · by_contra hready
    rw [Bool.not_eq_false] at hready
    obtain ⟨k, -, hopen⟩ := hlively.readyIsLive hseated hunrefused hready
    simp [browserAdmissible, hopen] at hadmissible
  · have hopen := (hcarried (socket, frame) (carried_of_carries hcarries)).1 harms
    rw [openOwner_eq_some] at hopen
    exact ⟨hopen.1, .inl hopen.2⟩

/-- The taking of a message leaves readiness with the owner, and what its handler counts on. -/
theorem inTime_prepares {a : Actor} {b b' : Bridge} (hb : Standing b) (h : Prepares a b b')
    (hlively : Lively b.ports) (hseated : Seated b.ports) (htime : InTime a b.ports) :
    (Lively b'.ports ∧ Seated b'.ports) ∧ InTime a b'.ports := by
  have hplain := plain_prepares h
  have harmed : ∀ k, b'.ports.acousticReady = true → b'.ports.armedBy = some k →
      b.ports.acousticReady = true ∧ b.ports.armedBy = some k := fun k hq hk =>
    ⟨hplain.acousticReady ▸ hq, hplain.armedBy ▸ hk⟩
  refine ⟨⟨hlively.plain hplain, hseated.change hlively hb.placed h.spares (hlively.plain hplain)
    htime (fun k hq hk => .inl (harmed k hq hk))⟩, ?_⟩
  refine htime.of_same hlively hb.placed h.spares ?_
    (fun socket frame _ harms => hplain.arms socket frame ▸ harms)
    (fun _ _ _ hq => .inl (hplain.acousticReady ▸ hq)) (fun k _ => harmed k)
    (fun _ => ⟨hplain.owner, hplain.attached⟩)
  intro ha
  cases h with
  | message => cases ha
  | call => cases ha

/-- Moves leave readiness with the owner, and what their actor counts on. -/
theorem inTime_move {options : BridgeServerOptions} {a : Actor} {b b' : Bridge} (hb : Standing b)
    (h : Move options False a b b') (hlively : Lively b.ports) (hseated : Seated b.ports)
    (htime : InTime a b.ports) : (Lively b'.ports ∧ Seated b'.ports) ∧ InTime a b'.ports := by
  refine ⟨?_, htime.move hlively hb h⟩
  rcases bridge_plain_or h with hplain | hturn
  · exact ⟨hlively.plain hplain, hseated.change hlively hb.placed h.spares (hlively.plain hplain)
      htime (fun k hq hk => .inl ⟨hplain.acousticReady ▸ hq, hplain.armedBy ▸ hk⟩)⟩
  · have hlively' := hlively.move hb.placed hturn htime
    exact ⟨hlively', hseated.change hlively hb.placed h.spares hlively' htime
      (fun k hq hk => armed_of_move hturn hq hk)⟩

/-- Readiness stays with an owner that sits in every run that is handled in time. -/
theorem lively_run (options : BridgeServerOptions) {events : List Event}
    (h : Along (step options) HandledInTime (createBridgeServer options) events) :
    Lively (run (step options) (createBridgeServer options) events).state.ports ∧
      Seated (run (step options) (createBridgeServer options) events).state.ports := by
  refine bridge_invariant (I := fun b => Lively b.ports ∧ Seated b.ports)
    (G := fun a b => InTime a b.ports) (fun w e hin hI => hin.inTime hI.1 hI.2)
    (fun a b b' hb hprepares hI hG => inTime_prepares hb hprepares hI.1 hI.2 hG)
    (fun a b b' hb hmove hI hG => inTime_move hb hmove hI.1 hI.2 hG) ?_ h
  refine ⟨?_, fun hready => ?_⟩
  · constructor <;> simp [createBridgeServer]
  · simp [createBridgeServer] at hready

/-- In every run in which frames are handled in time, the session is ready in a state only if the
browser whose proof made it ready owns its endpoint and is open; and no frame that is handled
after the close of its connection has an effect on readiness. -/
theorem readyIsLive_of_handledInTime (options : BridgeServerOptions) (events : List Event)
    (e : Event)
    (h : Along (step options) HandledInTime (createBridgeServer options) (events ++ [e])) :
    let w := run (step options) (createBridgeServer options) events
    ReadyIsLive w.state.ports ∧ ∀ socket message, actorOf w e = .handler socket message →
      (w.state.ports.sockets socket).attached = false →
      (step options w e).state.ports.acousticReady = w.state.ports.acousticReady := by
  intro w
  obtain ⟨hevents, hlast, -⟩ := (along_append (step options)).mp h
  obtain ⟨hlively, hseated⟩ := lively_run options hevents
  refine ⟨hlively.readyIsLive hseated hlast.1, fun socket message hactor hgone => ?_⟩
  have hsound : Sound options False w := sound_run events
  have hkept := step_keeps (e := e) (I := fun b => (Lively b.ports ∧ Seated b.ports) ∧
      (b.ports.sockets socket).attached = false ∧
      b.ports.acousticReady = w.state.ports.acousticReady)
    (G := fun b => InTime (actorOf w e) b.ports) ?_ ?_ hsound ⟨⟨hlively, hseated⟩, hgone, rfl⟩
    (hlast.inTime hlively hseated)
  · exact hkept.2.2
  · intro b b' hb hprepares hI hG
    have hplain := plain_prepares hprepares
    obtain ⟨hkeeps, htime⟩ := inTime_prepares hb hprepares hI.1.1 hI.1.2 hG
    exact ⟨⟨hkeeps, (hplain.attached socket).trans hI.2.1,
      hplain.acousticReady.trans hI.2.2⟩, htime⟩
  · intro b b' hb hmove hI hG
    obtain ⟨hkeeps, htime⟩ := inTime_move hb hmove hI.1.1 hI.1.2 hG
    rcases bridge_plain_or hmove with hplain | hturn
    · exact ⟨⟨hkeeps, (hplain.attached socket).trans hI.2.1,
        hplain.acousticReady.trans hI.2.2⟩, htime⟩
    · obtain ⟨hready, hgone'⟩ := ready_of_late hactor hturn hI.1.1 hG hI.2.1
      exact ⟨⟨hkeeps, hgone', hready.trans hI.2.2⟩, htime⟩

/-- A browser becomes ready. -/
def benchLive : List Event :=
  [.connectBrowser, .resume 0 .resolved, .receive 0 (benchHello 1 0), .process 0,
    .receive 0 (benchReady 1 0), .process 0]

/-- It owns its endpoint and is open. -/
theorem readyIsLive_bench :
    Along (step benchBridge) HandledInTime (createBridgeServer benchBridge)
        (benchLive ++ [.process 0]) ∧
      (run (step benchBridge) (createBridgeServer benchBridge) benchLive).state.ports.acousticReady =
        true ∧
      ReadyIsLive (run (step benchBridge) (createBridgeServer benchBridge) benchLive).state.ports :=
  ⟨by decide +kernel, by decide +kernel,
    (readyIsLive_of_handledInTime benchBridge benchLive (.process 0) (by decide +kernel)).1⟩

/-- A browser reports a result, sends its proof while the report of that is being written, and is
gone when the proof is handled. -/
def benchGone : List Event :=
  [.connectBrowser, .resume 0 .resolved, .receive 0 (benchHello 1 0), .process 0,
    .receive 0 (benchCaseResult 1 1), .process 0, .resume 0 .resolved,
    .receive 0 (benchReady 1 0), .closed 0, .beginWrite 1, .endWrite 1 true,
    .resume 0 .resolved, .process 0]

/-- The session is ready, and nobody owns the browser endpoint. -/
theorem not_readyIsLive_gone :
    ¬ReadyIsLive (run (step benchBridge) (createBridgeServer benchBridge) benchGone).state.ports := by
  intro h
  have hready : (run (step benchBridge) (createBridgeServer benchBridge)
      benchGone).state.ports.acousticReady = true := by decide +kernel
  obtain ⟨k, -, howner⟩ := h hready
  have hnone : (run (step benchBridge) (createBridgeServer benchBridge)
      benchGone).state.ports.owner = none := by decide +kernel
  rw [openOwner_eq_some, hnone] at howner
  cases howner.1

end Fipwave.BrowserReadiness
