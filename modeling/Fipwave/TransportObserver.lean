import Fipwave.TransportBudget

/-!
# What an observer of the sound transport sees

An observer who sees sockets opened and lost, epochs begun, the transport armed
and disarmed, and packets queued, written and delivered can tell what the
transport may do next. The observer is the specification: every run of the
transport, whatever callers, the bridge and the clock do, is a run the observer
allows, and the transport holds no authority the observer does not know of.
-/

namespace Fipwave.TransportObserver

open ByteWords FwavProtocol FipsTransport TransportMoves TransportBudget TransitionRun

/-- What the observer knows. -/
structure Seen where
  /-- A socket is served. -/
  serving : Bool := false
  /-- Epoch. -/
  epoch : ℕ := 1
  /-- The proof the transport was armed with, while it is armed. -/
  standing : Option Bytes := none
  /-- Sequence of the last packet delivered in this epoch. -/
  highest : Option ℕ := none
  /-- Sequence of the last packet queued in this epoch. -/
  sent : ℕ := 0
  /-- Frames queued for this socket in this epoch. -/
  recent : List OutboundFrame := []
  deriving DecidableEq, Repr

/-- The observer sees something happen. -/
def observe (seen : Seen) : Entry → Seen
  | .opened => { seen with serving := true, standing := none, recent := [] }
  | .closed => { seen with serving := false, standing := none, recent := [] }
  | .reset epoch =>
    { seen with epoch := epoch, standing := none, highest := none, sent := 0, recent := [] }
  | .armed _ proof => { seen with standing := some proof }
  | .disarmed _ => { seen with standing := none }
  | .queued epoch sequence trafficClass data now =>
    { seen with
      sent := sequence
      recent := seen.recent ++ [⟨encodePacket epoch sequence trafficClass data, now⟩] }
  | .written _ _ => seen
  | .delivered _ sequence _ => { seen with highest := some sequence }

/-- What may happen next. -/
def Allowed (config : SoundConfig) (seen : Seen) : Entry → Prop
  | .opened => seen.serving = false
  | .closed => True
  | .reset epoch => seen.serving = true ∧ seen.epoch < epoch ∧ epoch < 2 ^ 32
  | .armed epoch proof => seen.serving = true ∧ epoch = seen.epoch ∧
      proof.length = acousticReadinessProofBytes ∧ proofStands proof = true
  | .disarmed capability => ∃ proof, seen.standing = some proof ∧ sliceAt proof 48 16 = capability
  | .queued epoch sequence _ data _ => seen.standing.isSome = true ∧ epoch = seen.epoch ∧
      sequence = (seen.sent + 1) % 2 ^ 64 ∧ data.length ≤ config.mtu
  | .written frame lookedAt => frame ∈ seen.recent ∧
      lookedAt - frame.enqueuedAt ≤ config.queueMaxAgeMs
  | .delivered epoch sequence data => seen.standing.isSome = true ∧ epoch = seen.epoch ∧
      data.length ≤ config.mtu ∧ ∀ highest, seen.highest = some highest → highest < sequence

/-- What the observer of a log knows. -/
def seenIn (log : List Entry) : Seen := run observe {} log

/-- What the observer has seen is folded entry by entry. -/
@[simp] theorem seenIn_snoc (log : List Entry) (entry : Entry) :
    seenIn (log ++ [entry]) = observe (seenIn log) entry := run_append observe {} log [entry]

/-- Everything in a log was allowed when it happened. -/
def Lawful (config : SoundConfig) (log : List Entry) : Prop := Along observe (Allowed config) {} log

/-- A log is lawful when all but its last entry is, and the last one was allowed then. -/
theorem lawful_snoc {config : SoundConfig} {log : List Entry} {entry : Entry} :
    Lawful config (log ++ [entry]) ↔ Lawful config log ∧ Allowed config (seenIn log) entry := by
  simp only [Lawful, along_append, Along, and_true]
  rfl

/-- Frames of a socket that may still be written. -/
def pending (socket : Serving) : List OutboundFrame :=
  match socket.work with
  | .idle => socket.queue
  | .taken frame => frame :: socket.queue
  | .writing frame _ => frame :: socket.queue
  | .draining _ => []

/-- The transport holds what the observer knows. -/
structure Shown (t : SoundTransport) : Prop where
  /-- The log was allowed. -/
  lawful : Lawful t.config t.log
  /-- The epoch. -/
  epoch : t.runtime.epoch = (seenIn t.log).epoch
  /-- The last sequence queued. -/
  sent : t.runtime.nextSequence = (seenIn t.log).sent
  /-- The last sequence delivered. -/
  highest : t.runtime.highestReceivedSequence = (seenIn t.log).highest
  /-- Readiness is a proof. -/
  ready : t.runtime.browserReady = t.runtime.readinessProof.isSome
  /-- While a socket is served, the proof is the one the observer saw. -/
  served : ∀ socket, t.worker = .serving socket → (seenIn t.log).serving = true ∧
    t.runtime.readinessProof = (seenIn t.log).standing ∧
    (∀ frame ∈ pending socket, frame ∈ (seenIn t.log).recent) ∧
    (∀ frame lookedAt, socket.work = .writing frame lookedAt →
      lookedAt - frame.enqueuedAt ≤ t.config.queueMaxAgeMs)
  /-- While none is, the observer knows of no proof. -/
  away : (∀ socket, t.worker ≠ .serving socket) →
    (seenIn t.log).serving = false ∧ (seenIn t.log).standing = none

/-- The observer of an empty log knows a transport just made. -/
theorem shown_made (config : SoundConfig) : Shown (made config) where
  lawful := trivial
  epoch := rfl
  sent := rfl
  highest := rfl
  ready := rfl
  served := nofun
  away _ := ⟨rfl, rfl⟩

section Moves

variable {t : SoundTransport}

/-- A change of the runtime that the observer cannot tell apart keeps it known. -/
theorem shown_note (h : Shown t) {r : Runtime} (halike : Alike t.runtime r) :
    Shown { t with runtime := r } where
  lawful := h.lawful
  epoch := halike.epoch.trans h.epoch
  sent := halike.nextSequence.trans h.sent
  highest := halike.highestReceivedSequence.trans h.highest
  ready := by
    have hready := halike.browserReady
    have hproof := halike.readinessProof
    show r.browserReady = r.readinessProof.isSome
    rw [hready, hproof]
    exact h.ready
  served socket hsocket := by
    obtain ⟨hserving, hproof, hpending⟩ := h.served socket hsocket
    exact ⟨hserving, halike.readinessProof.trans hproof, hpending⟩
  away := h.away

/-- The task goes on with the same socket and nothing is seen. -/
theorem shown_serving (h : Shown t) {socket : Serving} (hsocket : t.worker = .serving socket)
    {r : Runtime} {next : Serving} (hepoch : r.epoch = t.runtime.epoch)
    (hsent : r.nextSequence = t.runtime.nextSequence)
    (hhighest : r.highestReceivedSequence = t.runtime.highestReceivedSequence)
    (hready : r.browserReady = t.runtime.browserReady)
    (hproof : r.readinessProof = t.runtime.readinessProof)
    (hpending : ∀ frame ∈ pending next, frame ∈ pending socket)
    (hwriting : ∀ frame lookedAt, next.work = .writing frame lookedAt →
      lookedAt - frame.enqueuedAt ≤ t.config.queueMaxAgeMs) :
    Shown { t with runtime := r, worker := .serving next } := by
  obtain ⟨hserving, hstanding, hrecent, -⟩ := h.served socket hsocket
  refine ⟨h.lawful, hepoch.trans h.epoch, hsent.trans h.sent, hhighest.trans h.highest, ?_, ?_, ?_⟩
  · show r.browserReady = r.readinessProof.isSome
    rw [hready, hproof]
    exact h.ready
  · intro other hother
    obtain rfl : next = other := Worker.serving.inj hother
    refine ⟨hserving, hproof.trans hstanding, ?_, hwriting⟩
    intro frame hframe
    exact hrecent frame (hpending frame hframe)
  · intro hnone
    exact absurd rfl (hnone next)

/-- A task that served no socket still serves none. -/
theorem shown_away (h : Shown t) {r : Runtime} {worker : Worker} {exclusive : Option Exclusive}
    (hwas : ∀ socket, t.worker ≠ .serving socket) (hnone : ∀ socket, worker ≠ .serving socket)
    (hepoch : r.epoch = t.runtime.epoch) (hsent : r.nextSequence = t.runtime.nextSequence)
    (hhighest : r.highestReceivedSequence = t.runtime.highestReceivedSequence)
    (hready : r.browserReady = r.readinessProof.isSome) :
    Shown { t with runtime := r, worker := worker, exclusive := exclusive } where
  lawful := h.lawful
  epoch := hepoch.trans h.epoch
  sent := hsent.trans h.sent
  highest := hhighest.trans h.highest
  ready := hready
  served socket hsocket := absurd hsocket (hnone socket)
  away _ := h.away hwas

/-- A socket is lost, or the task ends. -/
theorem shown_closed (h : Shown t) {r : Runtime} {worker : Worker}
    (hnone : ∀ socket, worker ≠ .serving socket) (hepoch : r.epoch = t.runtime.epoch)
    (hsent : r.nextSequence = t.runtime.nextSequence)
    (hhighest : r.highestReceivedSequence = t.runtime.highestReceivedSequence)
    (hready : r.browserReady = r.readinessProof.isSome) :
    Shown { t with runtime := r, worker := worker, log := t.log ++ [.closed] } where
  lawful := lawful_snoc.mpr ⟨h.lawful, trivial⟩
  epoch := by
    rw [seenIn_snoc]
    exact hepoch.trans h.epoch
  sent := by
    rw [seenIn_snoc]
    exact hsent.trans h.sent
  highest := by
    rw [seenIn_snoc]
    exact hhighest.trans h.highest
  ready := hready
  served socket hsocket := absurd hsocket (hnone socket)
  away _ := by
    rw [seenIn_snoc]
    exact ⟨rfl, rfl⟩

/-- Something is seen while the task serves a socket. -/
theorem shown_seen (h : Shown t) {r : Runtime} {next : Serving} {channels : ℕ} {entry : Entry}
    (hallowed : Allowed t.config (seenIn t.log) entry)
    (hepoch : r.epoch = (observe (seenIn t.log) entry).epoch)
    (hsent : r.nextSequence = (observe (seenIn t.log) entry).sent)
    (hhighest : r.highestReceivedSequence = (observe (seenIn t.log) entry).highest)
    (hready : r.browserReady = r.readinessProof.isSome)
    (hserving : (observe (seenIn t.log) entry).serving = true)
    (hproof : r.readinessProof = (observe (seenIn t.log) entry).standing)
    (hpending : ∀ frame ∈ pending next, frame ∈ (observe (seenIn t.log) entry).recent)
    (hwriting : ∀ frame lookedAt, next.work = .writing frame lookedAt →
      lookedAt - frame.enqueuedAt ≤ t.config.queueMaxAgeMs) :
    Shown { t with
      runtime := r
      worker := .serving next
      channels := channels
      log := t.log ++ [entry] } := by
  refine ⟨lawful_snoc.mpr ⟨h.lawful, hallowed⟩, ?_, ?_, ?_, hready, ?_, ?_⟩
  · rw [seenIn_snoc]
    exact hepoch
  · rw [seenIn_snoc]
    exact hsent
  · rw [seenIn_snoc]
    exact hhighest
  · intro other hother
    obtain rfl : next = other := Worker.serving.inj hother
    rw [seenIn_snoc]
    exact ⟨hserving, hproof, hpending, hwriting⟩
  · intro hnone
    exact absurd rfl (hnone next)

/-- What the observer knows while a proof stands. -/
theorem Shown.standing (h : Shown t) {socket : Serving} (hsocket : t.worker = .serving socket)
    (hready : t.runtime.browserReady = true) : (seenIn t.log).standing.isSome = true := by
  obtain ⟨-, hproof, -⟩ := h.served socket hsocket
  rw [← hproof, ← h.ready]
  exact hready

/-- What injecting a browser's frame notes is allowed, and keeps the transport known. The queue is
kept, or emptied by a new epoch. -/
theorem shown_injected (h : Shown t) {channel : ℕ} {queue : List OutboundFrame}
    (hsocket : t.worker = .serving ⟨channel, queue, .idle⟩) {injected : Injected}
    (hinjects : Injects t.config.mtu t.runtime injected) {work : Work}
    (hwork : work = .idle ∨ work = .draining [])
    (hreset : injected.runtime.epoch ≠ t.runtime.epoch → work = .draining []) :
    Shown { t with
      runtime := injected.runtime
      worker := .serving ⟨channel, queue, work⟩
      log := t.log ++ injected.entry.toList } := by
  obtain ⟨hserving, hproof, hrecent, -⟩ := h.served _ hsocket
  have hpending : ∀ frame ∈ pending ⟨channel, queue, work⟩, frame ∈ queue := by
    rcases hwork with rfl | rfl
    · exact fun _ hframe => hframe
    · exact nofun
  have hkept : ∀ frame ∈ pending ⟨channel, queue, work⟩, frame ∈ (seenIn t.log).recent :=
    fun frame hframe => hrecent frame (hpending frame hframe)
  have hwriting : ∀ frame lookedAt, work = .writing frame lookedAt →
      lookedAt - frame.enqueuedAt ≤ t.config.queueMaxAgeMs := by
    intro frame lookedAt hwriting
    rcases hwork with rfl | rfl <;> cases hwriting
  cases hinjects with
  | noted accepted r' halike =>
    simp only [Option.toList_none, List.append_nil]
    exact shown_serving h hsocket halike.epoch halike.nextSequence halike.highestReceivedSequence
      halike.browserReady halike.readinessProof hpending hwriting
  | reset epoch hlater hfits =>
    have hdraining : work = .draining [] := hreset (Nat.ne_of_gt hlater)
    have hallowed : Allowed t.config (seenIn t.log) (.reset epoch) :=
      ⟨hserving, h.epoch ▸ hlater, hfits⟩
    refine shown_seen h hallowed rfl rfl rfl rfl hserving rfl ?_ hwriting
    rw [hdraining]
    exact nofun
  | armed proof hlength hstands =>
    have hallowed : Allowed t.config (seenIn t.log) (.armed t.runtime.epoch proof) :=
      ⟨hserving, h.epoch, hlength, hstands⟩
    exact shown_seen h hallowed h.epoch h.sent h.highest rfl hserving rfl hkept hwriting
  | disarmed proof hheld =>
    have hallowed : Allowed t.config (seenIn t.log) (.disarmed (sliceAt proof 48 16)) :=
      ⟨proof, hproof.symm.trans hheld, rfl⟩
    exact shown_seen h hallowed h.epoch h.sent h.highest rfl hserving rfl hkept hwriting
  | delivered sequence data hready hmtu hlater =>
    have hallowed : Allowed t.config (seenIn t.log) (.delivered t.runtime.epoch sequence data) :=
      ⟨h.standing hsocket hready, h.epoch, hmtu, fun highest hhighest =>
        hlater highest (h.highest.trans hhighest)⟩
    exact shown_seen h hallowed h.epoch h.sent rfl h.ready hserving hproof hkept hwriting

/-- Receiving from the browser notes only what is allowed. -/
theorem shown_receive (h : Shown t) {channel : ℕ} {queue : List OutboundFrame} {encoded : Bytes}
    {full : Bool} (hsocket : t.worker = .serving ⟨channel, queue, .idle⟩) :
    Shown (receive ⟨channel, queue, .idle⟩ encoded full t) := by
  have hinjects : Injects t.config.mtu t.runtime (injectInbound t.config.mtu full encoded t.runtime) :=
    injects_inbound full encoded
  refine shown_injected h hsocket hinjects ?_ ?_
  · split
    · exact .inr rfl
    · exact .inl rfl
  · intro hchanged
    have haccepted : (injectInbound t.config.mtu full encoded t.runtime).accepted = true := by
      generalize injectInbound t.config.mtu full encoded t.runtime = injected at *
      cases hinjects with
      | noted accepted r' halike => exact absurd halike.epoch hchanged
      | _ => rfl
    exact if_pos ⟨haccepted, hchanged⟩

/-- Looking at a frame taken off the queue writes it or notes nothing. -/
theorem shown_account (h : Shown t) {channel : ℕ} {queue : List OutboundFrame}
    {frame : OutboundFrame} {now : ℕ}
    (hsocket : t.worker = .serving ⟨channel, queue, .taken frame⟩) :
    Shown (account ⟨channel, queue, .taken frame⟩ frame now t) := by
  unfold account
  split
  · exact ⟨h.lawful, h.epoch, h.sent, h.highest, h.ready, h.served, h.away⟩
  · split
    · exact shown_serving h hsocket rfl rfl rfl rfl rfl
        (fun _ hframe => List.mem_cons_of_mem _ hframe) nofun
    · next hfresh =>
      refine shown_serving h hsocket rfl rfl rfl rfl rfl (fun _ hframe => hframe) ?_
      intro other lookedAt hwriting
      obtain ⟨rfl, rfl⟩ := Work.writing.inj hwriting
      exact not_lt.mp hfresh

/-- A frame is written once the observer has seen it queued. -/
theorem shown_wrote (h : Shown t) {channel : ℕ} {queue : List OutboundFrame}
    {frame : OutboundFrame} {lookedAt : ℕ} {whole : Bool}
    (hsocket : t.worker = .serving ⟨channel, queue, .writing frame lookedAt⟩) :
    Shown (wrote ⟨channel, queue, .writing frame lookedAt⟩ frame lookedAt whole t) := by
  obtain ⟨hserving, hproof, hrecent, hwriting⟩ := h.served _ hsocket
  have hallowed : Allowed t.config (seenIn t.log) (.written frame lookedAt) :=
    ⟨hrecent frame List.mem_cons_self, hwriting frame lookedAt rfl⟩
  have hkept : ∀ other ∈ queue, other ∈ (seenIn t.log).recent :=
    fun other hother => hrecent other (List.mem_cons_of_mem _ hother)
  have hidle : Shown { t with
      worker := .serving ⟨channel, queue, .idle⟩
      log := t.log ++ [.written frame lookedAt] } :=
    shown_seen h hallowed h.epoch h.sent h.highest h.ready hserving hproof hkept nofun
  unfold wrote
  split
  · exact hidle
  · exact shown_closed hidle nofun rfl rfl rfl rfl

/-- A packet is queued while the observer knows a proof, and within its limits. -/
theorem shown_queued (h : Shown t) {socket : Serving} {trafficClass : TrafficClass} {data : Bytes}
    {now : ℕ} (hsocket : t.worker = .serving socket) (hready : t.runtime.browserReady = true)
    (hmtu : data.length ≤ t.config.mtu) : Shown (queued socket trafficClass data now t) := by
  obtain ⟨hserving, hproof, hrecent, hwriting⟩ := h.served _ hsocket
  have hsequence : (t.runtime.nextSequence + 1) % 2 ^ 64 = ((seenIn t.log).sent + 1) % 2 ^ 64 := by
    rw [h.sent]
  have hallowed : Allowed t.config (seenIn t.log) (.queued t.runtime.epoch
      ((t.runtime.nextSequence + 1) % 2 ^ 64) trafficClass data now) :=
    ⟨h.standing hsocket hready, h.epoch, hsequence, hmtu⟩
  refine shown_seen h hallowed h.epoch rfl h.highest h.ready hserving hproof ?_ hwriting
  intro frame hframe
  have hcases : frame ∈ pending socket ∨ frame = ⟨encodePacket t.runtime.epoch
      ((t.runtime.nextSequence + 1) % 2 ^ 64) trafficClass data, now⟩ := by
    unfold pending at *
    cases hwork : socket.work <;> simp only [hwork, List.mem_append, List.mem_cons,
      List.not_mem_nil, or_false] at hframe ⊢ <;> tauto
  rcases hcases with hold | rfl
  · exact List.mem_append_left _ (hrecent frame hold)
  · exact List.mem_append_right _ List.mem_cons_self

/-- Every move is one the observer allows. -/
theorem shown_move {t' : SoundTransport} (hmove : Move t t') (hsound : Sound t) (h : Shown t) :
    Shown t' := by
  have hidle : Gone t.worker → ∀ socket, t.worker ≠ .serving socket :=
    fun hgone socket hsocket => not_gone hsocket hgone
  cases hmove with
  | note r halike => exact shown_note h halike
  | starting hcan =>
    have hnone := hidle (hsound.startable hcan)
    exact shown_away h hnone hnone rfl rfl rfl h.ready
  | started failure hstarting =>
    have hnone := hidle (hsound.starting hstarting).2
    cases failure with
    | none => exact shown_away h hnone nofun rfl rfl rfl h.ready
    | some code => exact shown_away h hnone hnone rfl rfl rfl h.ready
  | stopping hfree => exact ⟨h.lawful, h.epoch, h.sent, h.highest, h.ready, h.served, h.away⟩
  | stopped hgone => exact shown_away h (hidle hgone) nofun rfl rfl rfl rfl
  | queued socket trafficClass data now hsocket hready hmtu hroom hbudget =>
    exact shown_queued h hsocket hready hmtu
  | serve hconnected =>
    have hnone : ∀ socket, t.worker ≠ .serving socket := by
      intro socket hsocket
      rw [hconnected] at hsocket
      cases hsocket
    have hallowed : Allowed t.config (seenIn t.log) .opened := (h.away hnone).1
    exact shown_seen h hallowed h.epoch h.sent h.highest rfl rfl rfl nofun nofun
  | take channel frame rest hsocket =>
    exact shown_serving h hsocket rfl rfl rfl rfl rfl (fun _ hframe => hframe) nofun
  | account channel queue frame now hsocket => exact shown_account h hsocket
  | wrote channel queue frame lookedAt whole hsocket => exact shown_wrote h hsocket
  | receive channel queue encoded full hsocket => exact shown_receive h hsocket
  | lost channel queue hsocket => exact shown_closed h nofun rfl rfl rfl rfl
  | drainOne channel frame rest dropped hsocket =>
    exact shown_serving h hsocket rfl rfl rfl rfl rfl nofun nofun
  | drained channel dropped hsocket =>
    exact shown_serving h hsocket rfl rfl rfl rfl rfl nofun nofun
  | finish hstop hawake => exact shown_closed h nofun rfl rfl rfl h.ready
  | reconnecting r halike worker hsocket hnext =>
    obtain ⟨delay, sleeping, hwas⟩ := hsocket
    have hready : r.browserReady = r.readinessProof.isSome := by
      rw [halike.browserReady, halike.readinessProof]
      exact h.ready
    refine shown_away h ?_ ?_ halike.epoch halike.nextSequence halike.highestReceivedSequence hready
    · intro socket hsocket
      rw [hwas] at hsocket
      cases hsocket
    · intro socket hsocket
      rcases hnext with hnext | ⟨d, s, hnext⟩ <;> rw [hnext] at hsocket <;> cases hsocket

end Moves

/-- The observer knows the transport after every run, by induction over the actions. -/
theorem shown_after (config : SoundConfig) (actions : List Action) : Shown (after config actions) := by
  have hboth : Sound (after config actions) ∧ Shown (after config actions) :=
    invariant_after (I := fun t => Sound t ∧ Shown t) ⟨sound_made config, shown_made config⟩
      (fun _ _ hmove h => ⟨sound_move hmove h.1, shown_move hmove h.1 h.2⟩) actions
  exact hboth.2

/-- Every run of the transport is one the observer allows, and an address is said to be
connected exactly when the observer knows of a proof that stands. -/
theorem observed_run (config : SoundConfig) (actions : List Action) :
    Lawful config (after config actions).log ∧
      (connectionState config.peerAddr (after config actions) = .connected ↔
        (seenIn (after config actions).log).standing.isSome = true) := by
  have hsound := sound_after config actions
  have h := shown_after config actions
  have hconfig := config_after config actions
  generalize after config actions = t at *
  subst hconfig
  refine ⟨h.lawful, ?_⟩
  rw [connected_iff]
  constructor
  · rintro ⟨-, hup, hready⟩
    obtain ⟨socket, hsocket, -⟩ := hsound.socket hup
    exact h.standing hsocket hready
  · intro hstanding
    have hserved : ∃ socket, t.worker = .serving socket := by
      by_contra hnone
      push Not at hnone
      rw [(h.away hnone).2] at hstanding
      cases hstanding
    obtain ⟨socket, hsocket⟩ := hserved
    obtain ⟨-, hproof, -⟩ := h.served socket hsocket
    refine ⟨rfl, (hsound.served socket hsocket).1, ?_⟩
    rw [h.ready, hproof]
    exact hstanding

end Fipwave.TransportObserver
