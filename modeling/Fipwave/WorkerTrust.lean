import Fipwave.BrowserReadiness
import Fipwave.SentMessages
import Fipwave.WorkerNews

/-!
# What the worker has learned is true

A worker that has heard everything the bridge sent on its connection is ready
only if the acoustic session of the bridge is: it then has the proof of the
session and its epoch. Every move of the bridge keeps it so, because the worker
is told that a session ended before its epoch ends.
-/

namespace Fipwave.WorkerTrust

open ByteWords FwavProtocol BridgePorts BridgeMethods BridgeServer PortMoves BridgeMoves
  ReadinessMoves BrowserReadiness SentMessages WorkerNews

/-- What a worker that was connected in an epoch has learned when it has heard everything. -/
def learned (epoch : ℕ) (k : Socket) : Ear := (fresh epoch).listen k.sent

/-- A worker that has learned an epoch in range is sane whatever it was sent. -/
theorem sane_learned {epoch : ℕ} (h : epoch < 2 ^ 32) (k : Socket) : Sane (learned epoch k) :=
  (sane_fresh h).listen k.sent

/-- A worker that is ready has the proof of the session that is ready, and its epoch. -/
def Truthful (p : Ports) (e : Ear) : Prop :=
  e.ready = true → p.acousticReady = true ∧ e.proof = p.acousticReadinessProof ∧ e.epoch = p.epoch

/-- The worker whose connection is open knows nothing of a session that is ready. -/
def Idle (p : Ports) : Prop :=
  ∀ k, p.fipsOwner = some k → isOpen k p = true →
    ∀ epoch < 2 ^ 32, (learned epoch (p.sockets k)).ready = false

/-- What the worker has learned is true, with what keeps it so. -/
structure Trusted (p : Ports) : Prop where
  /-- The packet queues hold packets. -/
  holds : HoldsPackets p
  /-- The owner of the FIPS endpoint is a worker whose close was not handled yet. -/
  worker : ∀ k, p.fipsOwner = some k →
    (p.sockets k).attached = true ∧ (p.sockets k).endpoint = .fips
  /-- Readiness has a proof. -/
  proof : p.acousticReady = true → p.acousticReadinessProof ≠ none
  /-- What the worker has learned is true. -/
  told : ∀ k, p.fipsOwner = some k → isOpen k p = true →
    ∀ epoch < 2 ^ 32, Truthful p (learned epoch (p.sockets k))

/-- Nothing but messages that are no control frames is sent to the worker. -/
def Adds (p q : Ports) : Prop :=
  HoldsPackets p → ∀ k, p.fipsOwner = some k → ∃ more,
    (q.sockets k).sent = (p.sockets k).sent ++ more ∧ ∀ message ∈ more, controlOf message = none

section Trusted

variable {p q r : Ports}

/-- A worker learns nothing from messages that carry no control frame. -/
theorem learned_more {epoch : ℕ} {k k' : Socket} {more : List Outbound}
    (hsent : k'.sent = k.sent ++ more) (hmild : ∀ message ∈ more, controlOf message = none) :
    learned epoch k' = learned epoch k := by
  unfold learned
  rw [hsent, listen_append, listen_mild hmild]

/-- Relaying packets adds messages at the end of a stream and takes none away. -/
theorem adds_relayed (h : Relayed p q) : Adds p q := by
  intro hholds k _
  obtain ⟨frames, hframes, hk⟩ := h.said k
  have hmild : ∀ message ∈ frames.map Outbound.frame, controlOf message = none := by
    intro message hmessage
    obtain ⟨frame, hframe, rfl⟩ := List.mem_map.mp hmessage
    simp [controlOf, hframes hholds frame hframe]
  exact ⟨frames.map .frame, by rw [hk], hmild⟩

/-- Changes that do not concern what the worker knows. -/
structure Unconcerned (p q : Ports) : Prop where
  /-- Readiness stays. -/
  ready : q.acousticReady = p.acousticReady
  /-- So does its proof. -/
  proof : q.acousticReadinessProof = p.acousticReadinessProof
  /-- So does the epoch. -/
  epoch : q.epoch = p.epoch
  /-- So does the worker. -/
  owner : q.fipsOwner = p.fipsOwner
  /-- Its socket stays what it is, and does not open. -/
  socket : ∀ k, p.fipsOwner = some k → (q.sockets k).attached = (p.sockets k).attached ∧
    (q.sockets k).endpoint = (p.sockets k).endpoint ∧ (isOpen k q = true → isOpen k p = true)
  /-- It is told nothing about readiness. -/
  adds : Adds p q
  /-- Packets stay packets. -/
  holds : HoldsPackets p → HoldsPackets q

theorem Unconcerned.refl (p : Ports) : Unconcerned p p where
  ready := rfl
  proof := rfl
  epoch := rfl
  owner := rfl
  socket _ _ := ⟨rfl, rfl, id⟩
  adds _ _ _ := ⟨[], by rw [List.append_nil], by simp⟩
  holds := id

theorem Unconcerned.trans (hpq : Unconcerned p q) (hqr : Unconcerned q r) : Unconcerned p r where
  ready := hqr.ready.trans hpq.ready
  proof := hqr.proof.trans hpq.proof
  epoch := hqr.epoch.trans hpq.epoch
  owner := hqr.owner.trans hpq.owner
  socket k hk := by
    obtain ⟨hattached, hendpoint, hopened⟩ := hpq.socket k hk
    obtain ⟨hattached', hendpoint', hopened'⟩ := hqr.socket k (hpq.owner ▸ hk)
    exact ⟨hattached'.trans hattached, hendpoint'.trans hendpoint, fun h => hopened (hopened' h)⟩
  adds hholds k hk := by
    obtain ⟨more, hsent, hmild⟩ := hpq.adds hholds k hk
    obtain ⟨more', hsent', hmild'⟩ := hqr.adds (hpq.holds hholds) k (hpq.owner ▸ hk)
    have hboth : ∀ message ∈ more ++ more', controlOf message = none := by
      intro message hmessage
      rcases List.mem_append.mp hmessage with h | h
      · exact hmild message h
      · exact hmild' message h
    exact ⟨more ++ more', by rw [hsent', hsent, List.append_assoc], hboth⟩
  holds hholds := hqr.holds (hpq.holds hholds)

/-- A plain change that only adds messages does not concern the worker. -/
theorem unconcerned_plain (hplain : Plain p q) (hadds : Adds p q) : Unconcerned p q where
  ready := hplain.acousticReady
  proof := hplain.acousticReadinessProof
  epoch := hplain.epoch
  owner := hplain.fipsOwner
  socket k _ := ⟨hplain.attached k, hplain.endpoint k, hplain.opened k⟩
  adds := hadds
  holds := hplain.holds

/-- Relayed packets do not concern what the worker knows. -/
theorem unconcerned_relayed (h : Relayed p q) : Unconcerned p q :=
  unconcerned_plain (plain_relayed h) (adds_relayed h)

/-- Other sockets may come in while the worker keeps its own. -/
theorem unconcerned_grown (hplain : Plain p q) (hgrown : Grown p q) (hplaced : Placed p)
    (hworker : ∀ k, p.fipsOwner = some k → (p.sockets k).attached = true) : Unconcerned p q :=
  unconcerned_plain hplain (fun hholds k hk =>
    mild_of_plain hplain hgrown hholds (hplaced k (.inl (hworker k hk))))

/-- The socket of the worker stays as it is. -/
theorem unconcerned_same (hready : q.acousticReady = p.acousticReady)
    (hproof : q.acousticReadinessProof = p.acousticReadinessProof) (hepoch : q.epoch = p.epoch)
    (howner : q.fipsOwner = p.fipsOwner)
    (hsame : ∀ k, p.fipsOwner = some k → (q.sockets k).attached = (p.sockets k).attached ∧
      (q.sockets k).endpoint = (p.sockets k).endpoint ∧
      (q.sockets k).readyState = (p.sockets k).readyState ∧
      (q.sockets k).sent = (p.sockets k).sent)
    (hholds : HoldsPackets p → HoldsPackets q) : Unconcerned p q where
  ready := hready
  proof := hproof
  epoch := hepoch
  owner := howner
  socket k hk := by
    obtain ⟨hattached, hendpoint, hstate, -⟩ := hsame k hk
    unfold isOpen
    rw [hstate]
    exact ⟨hattached, hendpoint, id⟩
  adds _ k hk := by
    obtain ⟨-, -, -, hsent⟩ := hsame k hk
    exact ⟨[], by rw [hsent, List.append_nil], by simp⟩
  holds := hholds

/-- Another socket than that of the worker changes. -/
theorem unconcerned_other (hready : q.acousticReady = p.acousticReady)
    (hproof : q.acousticReadinessProof = p.acousticReadinessProof) (hepoch : q.epoch = p.epoch)
    (howner : q.fipsOwner = p.fipsOwner) {socket : ℕ} (hother : p.fipsOwner ≠ some socket)
    (hsockets : ∀ k ≠ socket, q.sockets k = p.sockets k)
    (hholds : HoldsPackets p → HoldsPackets q) : Unconcerned p q := by
  refine unconcerned_same hready hproof hepoch howner (fun k hk => ?_) hholds
  have hne : k ≠ socket := by
    intro heq
    rw [heq] at hk
    exact hother hk
  rw [hsockets k hne]
  exact ⟨rfl, rfl, rfl, rfl⟩

/-- The worker has learned the same after a change that does not concern it. -/
theorem learned_unconcerned (h : Unconcerned p q) (hholds : HoldsPackets p) {k : ℕ}
    (hk : p.fipsOwner = some k) (epoch : ℕ) :
    learned epoch (q.sockets k) = learned epoch (p.sockets k) := by
  obtain ⟨more, hsent, hmild⟩ := h.adds hholds k hk
  exact learned_more hsent hmild

/-- The invariant is kept by changes that do not concern the worker. -/
theorem Trusted.unconcerned (h : Trusted p) (hpq : Unconcerned p q) : Trusted q := by
  refine ⟨hpq.holds h.holds, fun k hk => ?_, fun hq => ?_, fun k hk hopen epoch hlt => ?_⟩
  · rw [hpq.owner] at hk
    obtain ⟨hattached, hendpoint, -⟩ := hpq.socket k hk
    rw [hattached, hendpoint]
    exact h.worker k hk
  · rw [hpq.proof]
    exact h.proof (hpq.ready ▸ hq)
  · rw [hpq.owner] at hk
    have hopened := (hpq.socket k hk).2.2 hopen
    unfold Truthful
    rw [learned_unconcerned hpq h.holds hk, hpq.ready, hpq.proof, hpq.epoch]
    exact h.told k hk hopened epoch hlt

/-- A worker that takes the session for idle still does so. -/
theorem Idle.unconcerned (h : Idle p) (hholds : HoldsPackets p) (hpq : Unconcerned p q) :
    Idle q := by
  intro k hk hopen epoch hlt
  have hk' : p.fipsOwner = some k := hpq.owner ▸ hk
  rw [learned_unconcerned hpq hholds hk']
  exact h k hk' ((hpq.socket k hk').2.2 hopen) epoch hlt

/-- The next place to be taken is not the worker's. -/
theorem Trusted.owner_ne (h : Trusted p) (hplaced : Placed p) :
    p.fipsOwner ≠ some p.socketCount := by
  intro howner
  have := hplaced p.socketCount (.inl (h.worker _ howner).1)
  omega

/-- A worker that can be trusted takes a session for idle that is. -/
theorem Trusted.idle (h : Trusted p) (hnot : p.acousticReady = false) : Idle p := by
  intro k hk hopen epoch hlt
  by_contra hready
  rw [Bool.not_eq_false] at hready
  have htold := (h.told k hk hopen epoch hlt hready).1
  rw [hnot] at htold
  cases htold

/-- The invariant holds of an attached worker that takes an idle session for idle. -/
theorem trusted_of_idle (hholds : HoldsPackets p) (hworker : ∀ k, p.fipsOwner = some k →
      (p.sockets k).attached = true ∧ (p.sockets k).endpoint = .fips)
    (hproof : p.acousticReady = true → p.acousticReadinessProof ≠ none) (hidle : Idle p) :
    Trusted p := by
  refine ⟨hholds, hworker, hproof, fun k hk hopen epoch hlt hready => ?_⟩
  rw [hidle k hk hopen epoch hlt] at hready
  cases hready

/-- What is sent to the worker that is told. -/
theorem sent_notify {armed : Bool} {k : ℕ} {proof : Bytes} (hk : openOwner p.fipsOwner p = some k)
    (hproof : p.acousticReadinessProof = some proof) :
    ((notifyFipsBrowserState armed p).sockets k).sent = (p.sockets k).sent ++
      [if armed then armMessage p.epoch proof else disarmMessage p.epoch proof] := by
  unfold notifyFipsBrowserState
  rw [hk, hproof]
  dsimp only
  unfold send
  rw [sockets_modifySocket, if_pos rfl]
  cases armed <;> rfl

/-- What a worker has learned when it has heard the notice. -/
theorem learned_notify {armed : Bool} {k epoch : ℕ} {proof : Bytes}
    (hk : openOwner p.fipsOwner p = some k) (hproof : p.acousticReadinessProof = some proof) :
    learned epoch ((notifyFipsBrowserState armed p).sockets k) =
      (learned epoch (p.sockets k)).hear
        (if armed then armMessage p.epoch proof else disarmMessage p.epoch proof) := by
  unfold learned
  rw [sent_notify hk hproof, listen_concat]

/-- A worker that is still there after it was told something was there before. -/
theorem openOwner_of_notify {armed : Bool} {k : ℕ}
    (hk : (notifyFipsBrowserState armed p).fipsOwner = some k)
    (hopen : isOpen k (notifyFipsBrowserState armed p) = true) :
    openOwner p.fipsOwner p = some k := by
  obtain ⟨hground, -, -, hsockets⟩ := notify_same armed p
  have howner : (notifyFipsBrowserState armed p).fipsOwner = p.fipsOwner :=
    congrArg Ground.fipsOwner hground
  rw [openOwner_eq_some, ← howner]
  unfold isOpen at hopen ⊢
  rw [(hsockets k).2] at hopen
  exact ⟨hk, hopen⟩

/-- Telling the worker something does not close it. -/
theorem worker_notify (armed : Bool) (hworker : ∀ k, p.fipsOwner = some k →
      (p.sockets k).attached = true ∧ (p.sockets k).endpoint = .fips) :
    ∀ k, (notifyFipsBrowserState armed p).fipsOwner = some k →
      ((notifyFipsBrowserState armed p).sockets k).attached = true ∧
        ((notifyFipsBrowserState armed p).sockets k).endpoint = .fips := by
  intro k hk
  obtain ⟨hground, -, -, hsockets⟩ := notify_same armed p
  have howner : (notifyFipsBrowserState armed p).fipsOwner = p.fipsOwner :=
    congrArg Ground.fipsOwner hground
  rw [howner] at hk
  have hattached := congrArg Footing.attached (hsockets k).1
  have hendpoint := congrArg Footing.endpoint (hsockets k).1
  exact ⟨hattached.trans (hworker k hk).1, hendpoint.trans (hworker k hk).2⟩

/-- A session becomes ready, or a worker is told that it is. -/
theorem trusted_arm (hholds : HoldsPackets p) (hworker : ∀ k, p.fipsOwner = some k →
      (p.sockets k).attached = true ∧ (p.sockets k).endpoint = .fips)
    (hready : p.acousticReady = true) (hproof : p.acousticReadinessProof ≠ none)
    (hidle : Idle p) : Trusted (notifyFipsBrowserState true p) := by
  obtain ⟨hground, -, hpackets, -⟩ := notify_same true p
  obtain ⟨proof, hsome⟩ := Option.ne_none_iff_exists'.mp hproof
  have hready' : (notifyFipsBrowserState true p).acousticReady = p.acousticReady :=
    congrArg Ground.acousticReady hground
  have hproof' : (notifyFipsBrowserState true p).acousticReadinessProof =
      p.acousticReadinessProof := congrArg Ground.acousticReadinessProof hground
  have hepoch' : (notifyFipsBrowserState true p).epoch = p.epoch := congrArg Ground.epoch hground
  refine ⟨hpackets hholds, worker_notify true hworker, fun _ => hproof' ▸ hproof, ?_⟩
  intro k hk hopen epoch hlt hheard
  have hto := openOwner_of_notify hk hopen
  obtain ⟨howner, hopened⟩ := openOwner_eq_some.mp hto
  rw [learned_notify hto hsome, if_pos rfl] at hheard ⊢
  rcases hear_arm (e := learned epoch (p.sockets k)) p.epoch proof with heq | heq
  · rw [heq, hidle k howner hopened epoch hlt] at hheard
    cases hheard
  · rw [heq, hready', hproof', hepoch', hsome]
    exact ⟨hready, rfl, rfl⟩

/-- A session ends: the worker is told. -/
theorem idle_disarm (h : Trusted p) (hready : p.acousticReady = true) :
    Idle (notifyFipsBrowserState false { p with acousticReady := false, armedBy := none }) := by
  obtain ⟨proof, hsome⟩ := Option.ne_none_iff_exists'.mp (h.proof hready)
  intro k hk hopen epoch hlt
  have hto := openOwner_of_notify hk hopen
  obtain ⟨howner, hopened⟩ := openOwner_eq_some.mp hto
  rw [learned_notify hto hsome, if_neg Bool.false_ne_true]
  apply hear_disarm (sane_learned hlt _)
  intro hheard
  obtain ⟨-, hproof, hepoch⟩ := h.told k howner hopened epoch hlt hheard
  exact ⟨hepoch, hproof.trans hsome⟩

/-- Disarming tells the worker so, and then there is nothing to know. -/
theorem trusted_disarm (h : Trusted p) : Trusted (disarmAcousticSession p) ∧
    (disarmAcousticSession p).acousticReady = false := by
  unfold disarmAcousticSession
  split
  · next hready =>
    rw [Bool.not_eq_true'] at hready
    exact ⟨h, hready⟩
  · next hready =>
    rw [Bool.not_eq_true', Bool.not_eq_false] at hready
    have hidle := idle_disarm h hready
    obtain ⟨hground, -, hpackets, -⟩ :=
      notify_same false { p with acousticReady := false, armedBy := none }
    have hworker := worker_notify (p := { p with acousticReady := false, armedBy := none }) false
      h.worker
    have hholds := hpackets h.holds
    have hfalse := congrArg Ground.acousticReady hground
    change (notifyFipsBrowserState false
      { p with acousticReady := false, armedBy := none }).acousticReady = false at hfalse
    generalize notifyFipsBrowserState false
      { p with acousticReady := false, armedBy := none } = s at hidle hworker hholds hfalse
    have hforgotten : Trusted { s with acousticReadinessProof := none } := by
      refine trusted_of_idle hholds hworker (fun hs => ?_) hidle
      have hs' : s.acousticReady = true := hs
      rw [hfalse] at hs'
      cases hs'
    have hrelayed := relayed_clearQueues { s with acousticReadinessProof := none }
    exact ⟨hforgotten.unconcerned (unconcerned_relayed hrelayed), hrelayed.acousticReady.trans hfalse⟩

end Trusted

section Moves

variable {p q : Ports}

/-- A browser that is turned away does not concern the worker. -/
theorem unconcerned_turnAway (hne : p.fipsOwner ≠ some p.socketCount) :
    Unconcerned p (turnAway p) := by
  refine unconcerned_other rfl rfl rfl rfl hne (fun k hk => ?_) id
  exact Function.update_of_ne hk _ _

/-- A browser that comes in does not concern the worker until it proves itself. -/
theorem unconcerned_connectBrowser (options : PortOptions)
    (hne : p.fipsOwner ≠ some p.socketCount) : Unconcerned p (connectBrowser options p) := by
  have hadmitted : Unconcerned p (admitBrowser p) := by
    refine unconcerned_other rfl rfl rfl rfl hne (fun k hk => ?_) id
    exact Function.update_of_ne hk _ _
  unfold connectBrowser
  split
  · exact unconcerned_turnAway hne
  · split
    · exact hadmitted.trans (unconcerned_relayed (relayed_flushToBrowser options _))
    · exact hadmitted

/-- The close of another socket does not concern the worker. -/
theorem unconcerned_detach {socket : ℕ} (hother : p.fipsOwner ≠ some socket) :
    Unconcerned p (detach socket p) := by
  refine unconcerned_other rfl rfl rfl rfl hother (fun k hk => ?_) id
  exact Function.update_of_ne hk _ _

/-- What is kept for a connection does not concern the worker. -/
theorem unconcerned_modifyConnection (socket : ℕ)
    (f : BrowserConnectionState → BrowserConnectionState) :
    Unconcerned p (modifyConnection socket f p) := by
  refine unconcerned_same rfl rfl rfl rfl (fun k _ => ?_) id
  unfold modifyConnection
  rw [sockets_modifySocket]
  split
  · next heq =>
    rw [heq]
    exact ⟨rfl, rfl, rfl, rfl⟩
  · exact ⟨rfl, rfl, rfl, rfl⟩

/-- A message without a control frame teaches the worker nothing. -/
theorem unconcerned_send (socket : ℕ) {message : Outbound} (h : controlOf message = none)
    (p : Ports) : Unconcerned p (send socket message p) := by
  refine unconcerned_plain (plain_send socket h p) (fun _ k _ => ?_)
  unfold send
  rw [sockets_modifySocket]
  split
  · next heq =>
    rw [heq]
    exact ⟨[message], rfl, by simpa using h⟩
  · exact ⟨[], by rw [List.append_nil], by simp⟩

/-- A capability is for its browser. -/
theorem unconcerned_issue (options : PortOptions) (socket : ℕ) (p : Ports) :
    Unconcerned p (issueAcousticCapability options socket p) := by
  have hcounted : Unconcerned p { p with issueCount := p.issueCount + 1 } :=
    unconcerned_same rfl rfl rfl rfl (fun _ _ => ⟨rfl, rfl, rfl, rfl⟩) id
  unfold issueAcousticCapability
  dsimp only
  split
  · exact (hcounted.trans (unconcerned_modifyConnection socket _)).trans (unconcerned_send socket rfl _)
  · exact hcounted.trans (unconcerned_modifyConnection socket _)

/-- Taking the bridge out of a state that needs a reset does not concern the worker. -/
theorem unconcerned_recovers {a : Actor} {f : Ports → Ports} (hf : Recovers a f) (p : Ports) :
    Unconcerned p (f p) := by
  rcases hf with ⟨-, rfl⟩ | ⟨socket, frame, -, -, rfl⟩
  · exact .refl p
  · exact unconcerned_modifyConnection socket _

/-- A worker that was admitted has learned nothing yet. -/
theorem idle_admitFips (p : Ports) : Idle (admitFips p) := by
  intro k hk _ epoch _
  obtain rfl : p.socketCount = k := Option.some.inj hk
  have hsocket : (admitFips p).sockets p.socketCount =
      { endpoint := .fips, readyState := .opened, attached := true } :=
    Function.update_self _ _ _
  rw [hsocket]
  rfl

/-- A worker that is admitted is attached to its endpoint. -/
theorem worker_admitFips (p : Ports) : ∀ k, (admitFips p).fipsOwner = some k →
    ((admitFips p).sockets k).attached = true ∧ ((admitFips p).sockets k).endpoint = .fips := by
  intro k hk
  obtain rfl : p.socketCount = k := Option.some.inj hk
  have hsocket : (admitFips p).sockets p.socketCount =
      { endpoint := .fips, readyState := .opened, attached := true } :=
    Function.update_self _ _ _
  rw [hsocket]
  exact ⟨rfl, rfl⟩

/-- A worker that comes in hears at once what it has to know. -/
theorem trusted_connectFips (options : PortOptions) (h : Trusted p) (hplaced : Placed p) :
    Trusted (connectFips options p) := by
  unfold connectFips
  split
  · exact h.unconcerned (unconcerned_turnAway (h.owner_ne hplaced))
  · have hadmitted : Trusted (admitFips p) :=
      trusted_of_idle h.holds (worker_admitFips p) h.proof (idle_admitFips p)
    have hrelayed : Relayed (admitFips p) (flushPacketQueue options .browserToFips (admitFips p)) :=
      relayed_flushToFips options (admitFips p)
    have hflushed := hadmitted.unconcerned (unconcerned_relayed hrelayed)
    have hidle := (idle_admitFips p).unconcerned h.holds (unconcerned_relayed hrelayed)
    dsimp only
    split
    · next hready =>
      exact trusted_arm hflushed.holds hflushed.worker hready (hflushed.proof hready) hidle
    · exact hflushed

/-- Without a worker there is nobody to be trusted. -/
theorem trusted_closeFips (h : Trusted p) (socket : ℕ) : Trusted (closeFips socket p) := by
  unfold closeFips
  dsimp only
  split
  · exact ⟨h.holds, nofun, h.proof, nofun⟩
  · next hother => exact h.unconcerned (unconcerned_detach hother)

/-- A browser that is gone ends readiness, and the worker hears of it. -/
theorem trusted_closeBrowser (h : Trusted p) {socket : ℕ}
    (hendpoint : (p.sockets socket).endpoint = .browser) :
    Trusted (closeBrowser socket p).2 := by
  have hother : p.fipsOwner ≠ some socket := by
    intro howner
    have hfips := (h.worker socket howner).2
    rw [hendpoint] at hfips
    cases hfips
  have hdetached := h.unconcerned (unconcerned_detach hother)
  have hcleared := hdetached.unconcerned (unconcerned_relayed (relayed_clearPending _))
  have hleft : Trusted { clearPendingBrowserAdmission (detach socket p) with owner := none } :=
    ⟨hcleared.holds, hcleared.worker, hcleared.proof, hcleared.told⟩
  have hreleased : Trusted (releaseOwner (detach socket p)) := (trusted_disarm hleft).1
  unfold closeBrowser
  dsimp only
  split
  · exact hdetached
  · split
    · exact ⟨hreleased.holds, hreleased.worker, hreleased.proof, hreleased.told⟩
    · split
      · exact hreleased
      · exact ⟨hreleased.holds, hreleased.worker, hreleased.proof, hreleased.told⟩

/-- Arming tells the worker so with the epoch it knows. -/
theorem trusted_armAcousticSession (h : Trusted p) (socket : ℕ) (payload : Bytes)
    (hnot : p.acousticReady = false) : Trusted (armAcousticSession socket payload p) := by
  have hspent := h.unconcerned (unconcerned_modifyConnection socket
    (fun c => { c with acousticCapabilityUsed := true }))
  have hidle := hspent.idle hnot
  unfold armAcousticSession
  dsimp only
  exact trusted_arm hspent.holds hspent.worker rfl (by simp) hidle

/-- A reset begins with an idle session, and the worker has heard so. -/
theorem trusted_resetPorts (a : Actor) (h : Trusted p) (hnot : p.acousticReady = false) :
    Trusted (resetPorts a p) := by
  have hsocket : ∀ k, ((resetPorts a p).sockets k).attached = (p.sockets k).attached ∧
      ((resetPorts a p).sockets k).endpoint = (p.sockets k).endpoint ∧
      ((resetPorts a p).sockets k).readyState = (p.sockets k).readyState :=
    fun k => ⟨view_resetPorts Socket.attached (fun _ _ _ _ => rfl) a p k,
      view_resetPorts Socket.endpoint (fun _ _ _ _ => rfl) a p k,
      view_resetPorts Socket.readyState (fun _ _ _ _ => rfl) a p k⟩
  have hoff : (resetPorts a p).acousticReady = true →
      (resetPorts a p).acousticReadinessProof ≠ none := by
    intro hready
    cases hready
  refine trusted_of_idle ?_ (fun k hk => ?_) hoff (fun k hk hopen epoch hlt => ?_)
  · intro entry hentry
    simp [resetPorts, clearQueues, record, refreshState, clearPendingBrowserAdmission] at hentry
  · rw [(hsocket k).1, (hsocket k).2.1]
    exact h.worker k hk
  · have hopened : isOpen k p = true := by
      unfold isOpen at hopen ⊢
      rwa [(hsocket k).2.2] at hopen
    unfold learned
    rw [sent_resetPorts]
    exact h.idle hnot k hk hopened epoch hlt

/-- The worker that hears of a new epoch is not ready, or knows what it knew. -/
theorem trusted_announceReset (a : Actor) (h : Trusted p) : Trusted (announceReset a p) := by
  have hsocket : ∀ k, ((announceReset a p).sockets k).attached = (p.sockets k).attached ∧
      ((announceReset a p).sockets k).endpoint = (p.sockets k).endpoint ∧
      ((announceReset a p).sockets k).readyState = (p.sockets k).readyState ∧
      (((announceReset a p).sockets k).sent = (p.sockets k).sent ∨ ∃ flags,
        ((announceReset a p).sockets k).sent =
          (p.sockets k).sent ++ [.frame (resetFrame flags p.epoch)]) := by
    intro k
    unfold announceReset
    dsimp only
    split
    · exact ⟨rfl, rfl, rfl, .inr ⟨_, rfl⟩⟩
    · exact ⟨rfl, rfl, rfl, .inl rfl⟩
  refine ⟨h.holds, fun k hk => ?_, h.proof, fun k hk hopen epoch hlt hready => ?_⟩
  · rw [(hsocket k).1, (hsocket k).2.1]
    exact h.worker k hk
  · have hopened : isOpen k p = true := by
      unfold isOpen at hopen ⊢
      rwa [(hsocket k).2.2.1] at hopen
    have htold := h.told k hk hopened epoch hlt
    unfold learned at hready ⊢ htold
    rcases (hsocket k).2.2.2 with hsent | ⟨flags, hsent⟩
    · rw [hsent] at hready ⊢
      exact htold hready
    · rw [hsent, listen_concat] at hready ⊢
      rcases hear_reset (e := (fresh epoch).listen (p.sockets k).sent) flags p.epoch with heq | heq
      · rw [heq] at hready ⊢
        exact htold hready
      · rw [heq] at hready
        cases hready

/-- Whatever concerns readiness, what the worker has learned stays true. -/
theorem Trusted.move {options : PortOptions} {a : Actor} (h : Trusted p) (hplaced : Placed p)
    (hmove : ReadinessMove options a p q) : Trusted q := by
  cases hmove with
  | greets => exact h.unconcerned (unconcerned_connectBrowser options (h.owner_ne hplaced))
  | joins => exact trusted_connectFips options h hplaced
  | leavesFips => exact trusted_closeFips h _
  | leaves ha hendpoint => exact trusted_closeBrowser h hendpoint
  | @readies socket frame hcarries harms =>
    have hnot : p.acousticReady = false := by
      simp only [arms, Bool.and_eq_true, Bool.not_eq_true'] at harms
      exact harms.1.1.2
    exact trusted_armAcousticSession h _ _ hnot
  | disarms => exact (trusted_disarm h).1.unconcerned (unconcerned_issue options _ _)
  | hails => exact h.unconcerned (unconcerned_issue options _ p)
  | exhausts hf => exact h.unconcerned (unconcerned_recovers hf p)
  | resets hf =>
    obtain ⟨hdisarmed, hnot⟩ := trusted_disarm (h.unconcerned (unconcerned_recovers hf p))
    exact trusted_resetPorts a hdisarmed hnot
  | announces => exact trusted_announceReset a h

/-- Whatever a bridge does, what the worker has learned stays true. -/
theorem Trusted.step {options : BridgeServerOptions} {w : World} (e : Event)
    (hw : Sound options False w) (h : Trusted w.state.ports) :
    Trusted (BridgeServer.step options w e).state.ports := by
  have hkeeps : ∀ {b b' : Bridge}, Standing b → Plain b.ports b'.ports → Grown b.ports b'.ports →
      Trusted b.ports → Trusted b'.ports := by
    intro b b' hb hplain hgrown hI
    exact hI.unconcerned (unconcerned_grown hplain hgrown hb.placed (fun k hk => (hI.worker k hk).1))
  refine step_keeps (I := fun b => Trusted b.ports) (G := fun _ => True) ?_ ?_ hw h trivial
  · intro b b' hb hprepares hI _
    exact ⟨hkeeps hb (plain_prepares hprepares) (grown_prepares hprepares) hI, trivial⟩
  · intro b b' hb hmove hI _
    rcases bridge_plain_or hmove with hplain | hturn
    · exact ⟨hkeeps hb hplain (grown_move hmove) hI, trivial⟩
    · exact ⟨hI.move hb.placed hturn, trivial⟩

/-- A bridge that begins to listen has no worker. -/
theorem trusted_createBridgeServer (options : BridgeServerOptions) :
    Trusted (createBridgeServer options).state.ports := by
  constructor <;> simp [createBridgeServer, HoldsPackets]

end Moves

/-- A worker in the epoch of a session that is ready is ready. -/
structure Synced (p : Ports) : Prop where
  /-- The proof of the session stands. -/
  stands : p.acousticReady = true → ∃ proof decoded,
    p.acousticReadinessProof = some proof ∧ decodeAcousticReadinessProof proof = .ok decoded
  /-- The worker was told. -/
  heard : p.acousticReady = true → ∀ k, p.fipsOwner = some k → isOpen k p = true →
    ∀ epoch < 2 ^ 32, (learned epoch (p.sockets k)).epoch = p.epoch →
      (learned epoch (p.sockets k)).ready = true

section Synced

variable {p q : Ports}

/-- Where the session is not ready no worker has to know the epoch. -/
theorem synced_of_not (h : p.acousticReady = false) : Synced p := by
  constructor
  · intro hready
    rw [h] at hready
    cases hready
  · intro hready
    rw [h] at hready
    cases hready

/-- A worker that is in step stays so while nothing concerns it. -/
theorem Synced.unconcerned (h : Synced p) (hholds : HoldsPackets p) (hpq : Unconcerned p q) :
    Synced q := by
  refine ⟨fun hq => ?_, fun hq k hk hopen epoch hlt hepoch => ?_⟩
  · rw [hpq.proof]
    exact h.stands (hpq.ready ▸ hq)
  · have hk' : p.fipsOwner = some k := hpq.owner ▸ hk
    rw [learned_unconcerned hpq hholds hk'] at hepoch ⊢
    exact h.heard (hpq.ready ▸ hq) k hk' ((hpq.socket k hk').2.2 hopen) epoch hlt
      (hepoch.trans hpq.epoch)

/-- A worker that is told of a session becomes ready, or is in another epoch. -/
theorem synced_arm {proof : Bytes} {decoded : AcousticReadinessProof}
    (hproof : p.acousticReadinessProof = some proof)
    (hdecoded : decodeAcousticReadinessProof proof = .ok decoded) :
    Synced (notifyFipsBrowserState true p) := by
  obtain ⟨hground, -, -, -⟩ := notify_same true p
  have hproof' : (notifyFipsBrowserState true p).acousticReadinessProof =
      p.acousticReadinessProof := congrArg Ground.acousticReadinessProof hground
  have hepoch' : (notifyFipsBrowserState true p).epoch = p.epoch := congrArg Ground.epoch hground
  refine ⟨fun _ => ⟨proof, decoded, hproof'.trans hproof, hdecoded⟩, ?_⟩
  intro _ k hk hopen epoch hlt hepoch
  have hto := openOwner_of_notify hk hopen
  rw [hepoch'] at hepoch
  rw [learned_notify hto hproof, if_pos rfl] at hepoch ⊢
  rcases hear_arm (e := learned epoch (p.sockets k)) p.epoch proof with heq | heq
  · rw [heq] at hepoch
    have hfits : p.epoch < 2 ^ 32 := hepoch ▸ (sane_learned hlt (p.sockets k)).epoch
    rw [hear_arm_of_epoch hepoch hfits ⟨decoded, hdecoded⟩]
  · rw [heq]

/-- Nothing is ready once the endpoint of the browser is given up. -/
theorem ready_releaseOwner (p : Ports) (h : Trusted p) : (releaseOwner p).acousticReady = false := by
  have hcleared := h.unconcerned (unconcerned_relayed (relayed_clearPending p))
  have hleft : Trusted { clearPendingBrowserAdmission p with owner := none } :=
    ⟨hcleared.holds, hcleared.worker, hcleared.proof, hcleared.told⟩
  exact (trusted_disarm hleft).2

/-- The close of a browser leaves the session idle, or ready by another one. -/
theorem synced_closeBrowser (h : Synced p) (htrusted : Trusted p) {socket : ℕ}
    (hendpoint : (p.sockets socket).endpoint = .browser) :
    Synced (closeBrowser socket p).2 := by
  have hother : p.fipsOwner ≠ some socket := by
    intro howner
    have hfips := (htrusted.worker socket howner).2
    rw [hendpoint] at hfips
    cases hfips
  have hdetach : Unconcerned p (detach socket p) := unconcerned_detach hother
  have hnot := ready_releaseOwner (detach socket p) (htrusted.unconcerned hdetach)
  unfold closeBrowser
  dsimp only
  split
  · exact h.unconcerned htrusted.holds hdetach
  · split
    · exact synced_of_not hnot
    · split
      · exact synced_of_not hnot
      · exact synced_of_not hnot

/-- A worker that comes in is told the current epoch first. -/
theorem synced_connectFips (options : PortOptions) (h : Synced p) (htrusted : Trusted p)
    (hplaced : Placed p) : Synced (connectFips options p) := by
  unfold connectFips
  split
  · exact h.unconcerned htrusted.holds (unconcerned_turnAway (htrusted.owner_ne hplaced))
  · have hrelayed : Relayed (admitFips p) (flushPacketQueue options .browserToFips (admitFips p)) :=
      relayed_flushToFips options (admitFips p)
    have hready : (flushPacketQueue options .browserToFips (admitFips p)).acousticReady =
        p.acousticReady := hrelayed.acousticReady
    have hproof : (flushPacketQueue options .browserToFips (admitFips p)).acousticReadinessProof =
        p.acousticReadinessProof := hrelayed.acousticReadinessProof
    dsimp only
    split
    · next hflushed =>
      obtain ⟨proof, decoded, hsome, hdecoded⟩ := h.stands (hready ▸ hflushed)
      exact synced_arm (hproof.trans hsome) hdecoded
    · next hflushed => exact synced_of_not (Bool.eq_false_of_not_eq_true hflushed)

/-- If no proof is taken while a reset waits for its report, a worker in the epoch of a session
that is ready stays ready, whatever concerns readiness. -/
theorem Synced.move {options : PortOptions} {a : Actor} (h : Synced p) (htrusted : Trusted p)
    (hattuned : Attuned p) (hplaced : Placed p) (hmove : ReadinessMove options a p q) :
    Synced q := by
  cases hmove with
  | greets =>
    exact h.unconcerned htrusted.holds
      (unconcerned_connectBrowser options (htrusted.owner_ne hplaced))
  | joins => exact synced_connectFips options h htrusted hplaced
  | @leavesFips socket ha hendpoint =>
    unfold closeFips
    dsimp only
    split
    · exact ⟨h.stands, fun _ k hk => by cases hk⟩
    · next hother => exact h.unconcerned htrusted.holds (unconcerned_detach hother)
  | leaves ha hendpoint => exact synced_closeBrowser h htrusted hendpoint
  | @readies socket frame hcarries harms =>
    have hdecodes : ∃ decoded, decodeAcousticReadinessProof frame.payload = .ok decoded := by
      simp only [arms, Bool.and_eq_true] at harms
      have hlast := harms.2
      cases hdecoded : decodeAcousticReadinessProof frame.payload with
      | ok decoded => exact ⟨decoded, rfl⟩
      | error text =>
        rw [hdecoded] at hlast
        cases hlast
    obtain ⟨decoded, hdecoded⟩ := hdecodes
    unfold armAcousticSession
    exact synced_arm rfl hdecoded
  | disarms =>
    obtain ⟨hdisarmed, hnot⟩ := trusted_disarm htrusted
    exact (synced_of_not hnot).unconcerned hdisarmed.holds (unconcerned_issue options _ _)
  | hails => exact h.unconcerned htrusted.holds (unconcerned_issue options _ p)
  | exhausts hf => exact h.unconcerned htrusted.holds (unconcerned_recovers hf p)
  | resets hf => exact synced_of_not rfl
  | announces hreset =>
    have hnot : p.acousticReady = false := by
      by_contra hready
      rw [Bool.not_eq_false] at hready
      rw [hattuned.calm hready] at hreset
      cases hreset
    exact synced_of_not hnot

/-- What the worker has learned is true and complete. -/
structure Aware (p : Ports) : Prop where
  /-- No proof is taken while a reset waits for its report. -/
  attuned : Attuned p
  /-- What the worker has learned is true. -/
  trusted : Trusted p
  /-- It is complete. -/
  synced : Synced p

/-- No proof is taken while a reset waits for its report; the actor of a step counts on it. -/
def Peaceful (a : Actor) (b : Bridge) : Prop :=
  ∀ socket frame, Carries a socket frame → arms socket frame b.ports = true →
    b.ports.resetsUnderway = []

/-- A plain change does not disturb the peace of an actor. -/
theorem Peaceful.plain {a : Actor} {b b' : Bridge} (h : Peaceful a b)
    (hplain : Plain b.ports b'.ports) : Peaceful a b' := by
  intro socket frame hcarries harms
  rw [hplain.arms] at harms
  have hnone := h socket frame hcarries harms
  exact List.subset_nil.mp (fun x hx => hnone ▸ hplain.resets x hx)

/-- As long as no proof is taken while a reset waits for its report, a bridge keeps its worker
aware, whatever it does. -/
theorem Aware.step {options : BridgeServerOptions} {w : World} (e : Event) (hw : Sound options False w)
    (h : Aware w.state.ports) (hpeace : ArmsInPeace w e) :
    Aware (BridgeServer.step options w e).state.ports := by
  have hkeeps : ∀ {b b' : Bridge}, Standing b → Plain b.ports b'.ports → Grown b.ports b'.ports →
      Aware b.ports → Aware b'.ports := by
    intro b b' hb hplain hgrown hI
    have hunconcerned := unconcerned_grown hplain hgrown hb.placed
      (fun k hk => (hI.trusted.worker k hk).1)
    exact ⟨hI.attuned.plain hplain, hI.trusted.unconcerned hunconcerned,
      hI.synced.unconcerned hI.trusted.holds hunconcerned⟩
  have hstart : Peaceful (actorOf w e) w.state := by
    intro socket frame hcarries harms
    exact hpeace (socket, frame) (carried_of_carries hcarries) harms
  refine step_keeps (I := fun b => Aware b.ports) (G := Peaceful (actorOf w e)) ?_ ?_ hw h hstart
  · intro b b' hb hprepares hI hG
    have hplain := plain_prepares hprepares
    exact ⟨hkeeps hb hplain (grown_prepares hprepares) hI, hG.plain hplain⟩
  · intro b b' hb hmove hI hG
    rcases bridge_plain_or hmove with hplain | hturn
    · exact ⟨hkeeps hb hplain (grown_move hmove) hI, hG.plain hplain⟩
    · have hattuned := hI.attuned.move hb.placed hturn hG
      have htrusted := hI.trusted.move hb.placed hturn
      have hsynced := hI.synced.move hI.trusted hI.attuned hb.placed hturn
      refine ⟨⟨hattuned, htrusted, hsynced⟩, fun socket frame hcarries harms => ?_⟩
      obtain ⟨hbefore, hresets⟩ := arms_of_move hturn hcarries harms
      have hnone := hG socket frame hcarries hbefore
      exact List.subset_nil.mp (fun x hx => hnone ▸ hresets x hx)

/-- At the beginning no worker has anything to be aware of. -/
theorem aware_createBridgeServer (options : BridgeServerOptions) :
    Aware (createBridgeServer options).state.ports := by
  refine ⟨?_, trusted_createBridgeServer options, synced_of_not rfl⟩
  constructor <;> simp [createBridgeServer, HoldsPackets]

end Synced

end Fipwave.WorkerTrust
