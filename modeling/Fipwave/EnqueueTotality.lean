import Fipwave.FragmentInverse
import Fipwave.LinkFrames
import Fipwave.LinkSessions

/-!
# When a packet can be offered

The owner of a session offers a packet in any state. The call drops what has
expired, checks the packet and the queue, takes a packet identifier, cuts the
packet by the committed payload size and uses the turn if it is the own one.
Cutting and transmitting may throw, after the identifier was taken: on a
packet of more than sixteen fragments, without committed settings and once
the transmission counter runs out. The call keeps its promise in exactly the
other states.
-/

namespace Fipwave.EnqueueTotality

open ByteWords ScriptIntegers ThrowingMethod TransitionRun AcousticProtocol SettingsCommitment
  PacketFragments AcousticHandshake AcousticState AcousticMethods AcousticNegotiation
  AcousticDelivery AcousticSession AcousticLink DeliveryMachine DeliveryRefinement LinkSessions
  LinkFrames
open TurnToken (mem_dequeue mem_pushPacket)
open FragmentInverse (fragmentPacket_of_admissible)

section Reachable

/-- What holds of the identifier and the packets of a session. -/
structure Anchored (s : AcousticSession) : Prop where
  /-- A ready session has an identifier. -/
  ready : s.state = .ready → s.link.sessionId ≠ none
  /-- Identifiers are positive words. -/
  bounds : ∀ id, s.link.sessionId = some id → 1 ≤ id ∧ id ≤ uint64Max
  /-- Pending packets were cut. -/
  packets : ∀ pending ∈ pendingPackets s, Cut pending.fragments

variable {role : AcousticRole} {epoch : ℕ} {s t : AcousticSession}

/-- A session that is kept keeps its anchor. -/
theorem Anchored.stays (h : Anchored s) (hstay : Stays role s t) : Anchored t := by
  refine ⟨fun hready => ?_, fun id hid => ?_, fun pending hmem => ?_⟩
  · rw [hstay.sessionId]
    exact (hstay.ready hready).elim h.ready id
  · rw [hstay.sessionId] at hid
    exact h.bounds id hid
  · rcases hstay.packets pending hmem with ⟨other, hother, hsame⟩ | hcut
    · rw [← hsame]
      exact h.packets other hother
    · exact hcut

/-- A session that is left leaves nothing to anchor. -/
theorem Anchored.leaves (hleave : Leaves role epoch s t) : Anchored t := by
  have hrest : restState role ≠ .ready := by cases role <;> decide
  refine ⟨fun hready => ?_, fun id hid => ?_, fun pending hmem => ?_⟩
  · rw [hleave.state] at hready
    exact absurd hready hrest
  · rw [hleave.sessionId] at hid
    cases hid
  · rw [hleave.packets] at hmem
    cases hmem

/-- A session that is taken up brings its own anchor. -/
theorem Anchored.takes (h : Anchored s) (htake : Takes role s t) : Anchored t := by
  refine ⟨fun hready => absurd hready htake.ready, fun id hid => ?_, fun pending hmem => ?_⟩
  · obtain ⟨taken, htaken, hlow, hhigh, -⟩ := htake.sessionId
    rw [htaken] at hid
    cases hid
    exact ⟨hlow, hhigh⟩
  · rw [htake.packets] at hmem
    exact h.packets pending hmem

/-- The anchor survives every change of session. -/
theorem Anchored.change (h : Anchored s) (hchange : Change role epoch s t) : Anchored t := by
  obtain ⟨u, v, hleave, htake, hstay⟩ := hchange
  have hleft : Anchored u := by
    rcases hleave with rfl | hleave
    · exact h
    · exact Anchored.leaves hleave
  have htaken : Anchored v := by
    rcases htake with rfl | htake
    · exact hleft
    · exact hleft.takes htake
  exact htaken.stays hstay

/-- Every reachable session is anchored. -/
theorem anchored_run (options : AcousticSessionOptions) (events : List (Readings × Event)) :
    Anchored (runSession options events) := by
  have hrest : restState options.role ≠ .ready := by cases options.role <;> decide
  refine invariant (step options) (fun s event h => ?_) ⟨fun hready => absurd hready hrest, ?_, ?_⟩
    events
  · obtain ⟨epoch, -, hchange⟩ := step_change options s event
    exact h.change hchange
  · intro id hid
    cases hid
  · intro pending hmem
    cases hmem

/-- A payload size fits one body. -/
def FitsBody (payloadBytes : ℕ) : Prop := 1 ≤ payloadBytes ∧ payloadBytes ≤ fas1MaxBodyBytes

/-- A packet that was not sent yet. -/
def Untouched (pending : PendingPacket) : Prop :=
  pending.attempts = 0 ∧ pending.acknowledged = 0

/-- What holds of the settings and the queues of a session. -/
structure Stocked (c : Core) : Prop where
  /-- Selected payloads fit one body. -/
  selected : ∀ direction candidate, c.selected.get direction = some candidate →
    FitsBody candidate.payloadBytes
  /-- Committed payloads fit one body. -/
  settings : ∀ settings, c.settings = some settings →
    FitsBody settings.aToB.payloadBytes ∧ FitsBody settings.bToA.payloadBytes
  /-- Queued packets were not sent yet. -/
  queued : ∀ pending, pending ∈ c.delivery.queues.control ∨
    pending ∈ c.delivery.queues.heartbeat ∨ pending ∈ c.delivery.queues.ordinary →
    Untouched pending
  /-- Packet identifiers are positive words. -/
  packetId : 1 ≤ c.delivery.packetId ∧ c.delivery.packetId ≤ uint32Max

/-- The next identifier stays between one and the largest word. -/
theorem nextPacketId_bounds {packetId : ℕ} (h : 1 ≤ packetId ∧ packetId ≤ uint32Max) :
    1 ≤ nextPacketId packetId ∧ nextPacketId packetId ≤ uint32Max := by
  have hmax : uint32Max = 0xffffffff := rfl
  unfold nextPacketId
  split <;> omega

/-- Moves keep the settings and the queues in order. -/
theorem stocked_move {x : Context} {c d : Core} (h : Move x c d) (hc : Stocked c)
    (hpayload : ∀ candidate ∈ x.candidates, FitsBody candidate.payloadBytes) : Stocked d := by
  cases h with
  | selectCandidate _ direction candidate hcandidate =>
    refine ⟨fun other found hfound => ?_, hc.settings, hc.queued, hc.packetId⟩
    by_cases hsame : other = direction
    · have hget : (c.selected.set (some candidate) direction).get other = some candidate := by
        subst hsame
        cases other <;> rfl
      rw [hget] at hfound
      cases hfound
      exact hpayload candidate hcandidate
    · rw [PerDirection.get_set_other _ _ hsame] at hfound
      exact hc.selected other found hfound
  | commitSettings _ aToB bToA hstate haToB hbToA =>
    refine ⟨hc.selected, fun settings hsettings => ?_, hc.queued, hc.packetId⟩
    cases hsettings
    exact ⟨hc.selected .aToB aToB haToB, hc.selected .bToA bToA hbToA⟩
  | expireQueues =>
    refine ⟨hc.selected, hc.settings, fun pending hmem => hc.queued pending ?_, hc.packetId⟩
    exact hmem.imp (fun h => (List.mem_filter.mp h).1)
      (Or.imp (fun h => (List.mem_filter.mp h).1) (fun h => (List.mem_filter.mp h).1))
  | activate _ hactive =>
    exact ⟨hc.selected, hc.settings,
      fun pending hmem => hc.queued pending (mem_dequeue (.inr hmem)), hc.packetId⟩
  | drawPacketId => exact ⟨hc.selected, hc.settings, hc.queued, nextPacketId_bounds hc.packetId⟩
  | accept _ input fragments trafficClass =>
    refine ⟨hc.selected, hc.settings, fun pending hmem => ?_, nextPacketId_bounds hc.packetId⟩
    rcases mem_pushPacket hmem with rfl | hmem
    · exact ⟨rfl, rfl⟩
    · exact hc.queued pending hmem
  | reset =>
    refine ⟨fun direction candidate hfound => ?_, fun settings hsettings => ?_,
      fun pending hmem => ?_, hc.packetId⟩
    · cases direction <;> cases hfound
    · cases hsettings
    · rcases hmem with hmem | hmem | hmem <;> cases hmem
  | _ => exact ⟨hc.selected, hc.settings, hc.queued, hc.packetId⟩

/-- The settings and the queues of every reachable session are in order. -/
theorem stocked_run (options : AdmittedOptions) (events : List (Readings × Event)) :
    Stocked (core (runSession options.toAcousticSessionOptions events)) := by
  have hpacketId : 1 ≤ 1 ∧ 1 ≤ uint32Max := by decide
  have hinitial : Stocked (core (initialSession options.role)) := by
    refine ⟨fun direction candidate hfound => ?_, fun settings hsettings => ?_,
      fun pending hmem => ?_, hpacketId⟩
    · cases direction <;> cases hfound
    · cases hsettings
    · rcases hmem with hmem | hmem | hmem <;> cases hmem
  refine core_run hinitial (fun _ hcandidates hmove hc => stocked_move hmove hc ?_) events
  rw [hcandidates]
  exact options.payload_bounds

end Reachable

section Call

variable {options : AcousticSessionOptions} {readings : Readings} {s t : AcousticSession} {now : ℕ}

/-- The packet being sent has not expired. -/
def ActiveLive (now : ℕ) (s : AcousticSession) : Prop :=
  ∀ active, s.delivery.active = some active → now ≤ active.expiresAt

/-- What expiry keeps as long as the packet being sent has not expired. -/
structure LiveFrame (s t : AcousticSession) : Prop where
  /-- The state. -/
  state : t.state = s.state
  /-- The link. -/
  link : t.link = s.link
  /-- The settings. -/
  commitment : t.commitment = s.commitment
  /-- The token. -/
  turnOwner : t.delivery.turnOwner = s.delivery.turnOwner
  /-- The ACK that is awaited. -/
  awaitingAck : t.delivery.awaitingAck = s.delivery.awaitingAck
  /-- The packet being sent. -/
  active : t.delivery.active = s.delivery.active

/-- An active packet that has time left is not expired. -/
theorem expireActive_live (h : ActiveLive now s) : expireActive options now s = s := by
  unfold expireActive
  split
  · rfl
  · next active hactive =>
    have hlive : ¬active.expiresAt < now := not_lt.mpr (h active hactive)
    rw [if_neg hlive]

/-- With a live active packet, expiry touches the queues alone. -/
theorem expireWork_live (h : ActiveLive now s) : LiveFrame s (expireWork options now s) := by
  have hactive : expireActive options now (expireQueues now s) = expireQueues now s :=
    expireActive_live h
  unfold expireWork
  rw [hactive]
  unfold expireInbound
  dsimp only
  split
  · exact ⟨rfl, rfl, rfl, rfl, rfl, rfl⟩
  · split <;> exact ⟨rfl, rfl, rfl, rfl, rfl, rfl⟩

/-- A session whose packet being sent has expired degrades. -/
theorem expireWork_stale (h : ¬ActiveLive now s) : (expireWork options now s).state ≠ .ready := by
  simp only [ActiveLive, not_forall, not_le] at h
  obtain ⟨active, hactive, hexpired⟩ := h
  have hdegraded : (expireActive options now (expireQueues now s)).state ≠ .ready := by
    have hqueued : (expireQueues now s).delivery.active = some active := hactive
    unfold expireActive
    rw [hqueued]
    dsimp only
    rw [if_pos hexpired]
    unfold degrade
    split
    · next hstate =>
      intro hready
      rw [hready] at hstate
      rcases hstate with hstate | hstate <;> cases hstate
    · exact fun hready => (by cases hready)
  unfold expireWork expireInbound
  dsimp only
  split
  · exact hdegraded
  · split <;> exact hdegraded

/-- Pending packets that have not expired stay. -/
theorem pendingPackets_expireWork (h : ActiveLive now s) :
    pendingPackets (expireWork options now s) = retained now (pendingPackets s) := by
  have hactive : (expireWork options now s).delivery.active = s.delivery.active :=
    (expireWork_live h).active
  have hqueues := (expireWork_frame options now s).queues
  have hkept : retained now s.delivery.active.toList = s.delivery.active.toList := by
    refine List.filter_eq_self.mpr (fun active hmem => ?_)
    exact decide_eq_true (h active (Option.mem_toList.mp hmem))
  unfold pendingPackets
  rw [hactive, hqueues]
  simp only [retained, List.filter_append] at hkept ⊢
  rw [hkept]

theorem pendingPackets_length (s : AcousticSession) :
    queueLength s + s.delivery.active.toList.length = (pendingPackets s).length := by
  unfold pendingPackets queueLength
  simp only [List.length_append]
  omega

/-- A bodyless unit of a session is refused only when the counter has run out. -/
theorem send_returns_iff {type : Fas1UnitType} {id : ℕ} (hid : 1 ≤ id ∧ id ≤ uint64Max)
    (htype : type = .turnEnd ∨ type = .heartbeat ∨ type = .reset) :
    (∃ t, send options type (some id) [] s = .ok t) ↔ s.sequence ≤ uint32Max := by
  have hwf : (controlUnit options type id [] s.sequence).WellFormed ↔
      id ≠ 0 ∧ id ≤ uint64Max ∧ s.sequence ≤ uint32Max := controlUnit_wellFormed_iff options htype
  constructor
  · rintro ⟨t, ht⟩
    obtain ⟨found, hfound, hunit, -⟩ := send_ok options ht
    cases hfound
    exact (hwf.mp hunit).2.2
  · intro hsequence
    have hnonzero : id ≠ 0 := by omega
    cases ht : send options type (some id) [] s with
    | error f => exact absurd (hwf.mpr ⟨hnonzero, hid.2, hsequence⟩) (send_refused options ht)
    | ok t => exact ⟨t, rfl⟩

/-- Units that can be encoded are all transmitted. -/
theorem transmitAll_returns {units : List Fas1Unit} (h : ∀ unit ∈ units, unit.WellFormed) :
    units.foldlM (fun s unit => transmit unit s) s =
      .ok { s with io.sent := s.io.sent ++ units } := by
  cases hresult : units.foldlM (fun s unit => transmit unit s) s with
  | ok t => rw [(transmitAll_ok hresult).2]
  | error f =>
    induction units generalizing s with
    | nil => cases hresult
    | cons unit units ih =>
      rw [List.foldlM_cons] at hresult
      cases hunit : transmit unit s with
      | error g => exact absurd (h unit List.mem_cons_self) (transmit_error hunit).1
      | ok t =>
        rw [hunit, ok_bind] at hresult
        have hrest := ih (fun other hmem => h other (List.mem_cons_of_mem _ hmem)) hresult
        cases hrest

/-- A burst of fragments is closed unless the counter has run out. -/
theorem sendBurst_returns_iff {id : ℕ} (hid : 1 ≤ id ∧ id ≤ uint64Max) (pending : PendingPacket)
    {missing : List Fas1Unit} (h : ∀ unit ∈ missing, unit.WellFormed) :
    (∃ t, sendBurst options id pending missing s = .ok t) ↔ s.sequence ≤ uint32Max := by
  unfold sendBurst
  dsimp only
  rw [transmitAll_returns h, ok_bind]
  generalize hbefore : ({ s with
    delivery.active := some { pending with attempts := pending.attempts + 1 }
    delivery.awaitingAck := true
    io.sent := s.io.sent ++ missing } : AcousticSession) = u
  have hsequence : u.sequence = s.sequence := by
    rw [← hbefore]
  rw [← hsequence, ← send_returns_iff hid (.inl rfl)]
  constructor
  · rintro ⟨t, ht⟩
    obtain ⟨v, hv, -⟩ := bind_ok ht
    exact ⟨v, hv⟩
  · rintro ⟨v, hv⟩
    rw [hv, ok_bind]
    split
    · exact ⟨_, rfl⟩
    · exact ⟨_, rfl⟩

/-- The own turn is free for a burst of the next packet. -/
def Bursts (role : AcousticRole) (s : AcousticSession) : Prop :=
  s.delivery.turnOwner = some role ∧ s.delivery.awaitingAck = false ∧
    ∀ active, s.delivery.active = some active →
      active.attempts < maxAttempts ∧ missingFragments active ≠ []

/-- A packet that was not sent yet misses all its fragments. -/
theorem missing_untouched {pending : PendingPacket} (h : Untouched pending)
    (hcut : Cut pending.fragments) :
    pending.attempts < maxAttempts ∧ missingFragments pending ≠ [] := by
  obtain ⟨hattempts, hacknowledged⟩ := h
  have hmax : maxAttempts = 3 := rfl
  have hall : pending.fragments.filter
      (fun unit => !pending.acknowledged.testBit unit.fragmentIndex) = pending.fragments := by
    refine List.filter_eq_self.mpr (fun unit _ => ?_)
    rw [hacknowledged, Nat.zero_testBit]
    rfl
  refine ⟨by omega, fun hnone => hcut.1 ?_⟩
  unfold missingFragments at hnone
  rw [hall, List.take_eq_nil_iff] at hnone
  rcases hnone with hnone | hnone
  · cases hnone
  · exact hnone

/-- Every fragment still missing is a well formed unit. -/
theorem missing_wellFormed {pending : PendingPacket} (hcut : Cut pending.fragments) :
    ∀ unit ∈ missingFragments pending, unit.WellFormed := fun unit hunit =>
  hcut.2 unit (List.mem_filter.mp (List.mem_of_mem_take hunit)).1

/-- The packet that is sent next, if packets are queued. -/
theorem activate_next (hqueued : ∀ pending, pending ∈ s.delivery.queues.control ∨
      pending ∈ s.delivery.queues.heartbeat ∨ pending ∈ s.delivery.queues.ordinary →
      Untouched pending)
    (hcut : ∀ pending ∈ pendingPackets s, Cut pending.fragments)
    (hwork : s.delivery.queues ≠ ⟨[], [], []⟩) :
    ∃ pending, (activate s).delivery.active = some pending ∧ Cut pending.fragments ∧
      ((∀ active, s.delivery.active = some active →
        active.attempts < maxAttempts ∧ missingFragments active ≠ []) ↔
      pending.attempts < maxAttempts ∧ missingFragments pending ≠ []) := by
  cases hactive : s.delivery.active with
  | some active =>
    have hsame : activate s = s := by
      unfold activate
      rw [hactive]
    refine ⟨active, by rw [hsame, hactive], hcut active ?_, ?_⟩
    · exact mem_pendingPackets.mpr (.inl hactive)
    · constructor
      · intro h
        exact h active rfl
      · rintro h other hother
        cases hother
        exact h
  | none =>
    have hnext : (activate s).delivery.active = (dequeue s.delivery.queues).1 := by
      unfold activate
      rw [hactive]
    cases hfirst : (dequeue s.delivery.queues).1 with
    | none => exact absurd (dequeue_none hfirst) hwork
    | some pending =>
      have hmem := mem_dequeue (.inl hfirst)
      have hpending : Cut pending.fragments :=
        hcut pending (mem_pendingPackets.mpr (.inr hmem))
      refine ⟨pending, hnext.trans hfirst, hpending, ?_⟩
      constructor
      · intro _
        exact missing_untouched (hqueued pending hmem) hpending
      · intro _ other hother
        cases hother

/-- What a burst needs is read off the session before its stale packets are dropped and its
settings are taken over. -/
theorem activate_expired (options : AcousticSessionOptions) (hlive : ActiveLive readings.now s)
    (hstocked : Stocked (core s)) (hcut : ∀ pending ∈ pendingPackets s, Cut pending.fragments)
    (hwork : (expireWork options readings.now s).delivery.queues ≠ ⟨[], [], []⟩) :
    ∃ pending, (activate (applyOutboundCandidate options
        (expireWork options readings.now s))).delivery.active = some pending ∧
      Cut pending.fragments ∧
      ((∀ active, s.delivery.active = some active →
        active.attempts < maxAttempts ∧ missingFragments active ≠ []) ↔
      pending.attempts < maxAttempts ∧ missingFragments pending ≠ []) := by
  have hframe : LiveFrame s (expireWork options readings.now s) := expireWork_live hlive
  have hactive := hframe.active
  have hpackets : pendingPackets (expireWork options readings.now s) =
      retained readings.now (pendingPackets s) := pendingPackets_expireWork hlive
  have hqueues := (expireWork_frame options readings.now s).queues
  have hdelivery : (applyOutboundCandidate options (expireWork options readings.now s)).delivery =
      (expireWork options readings.now s).delivery := by
    unfold applyOutboundCandidate
    split <;> rfl
  rw [← hactive, ← hdelivery]
  refine activate_next (fun pending hmem => ?_) (fun pending hmem => ?_) ?_
  · rw [hdelivery, hqueues] at hmem
    exact hstocked.queued pending (hmem.imp (fun h => (List.mem_filter.mp h).1)
      (Or.imp (fun h => (List.mem_filter.mp h).1) (fun h => (List.mem_filter.mp h).1)))
  · unfold pendingPackets at hmem hpackets
    rw [hdelivery, hpackets] at hmem
    exact hcut pending (List.mem_filter.mp hmem).1
  · rw [hdelivery]
    exact hwork

/-- The counter is not touched until the burst. -/
theorem sequence_activate (options : AcousticSessionOptions) (readings : Readings)
    (s : AcousticSession) :
    (activate (applyOutboundCandidate options (expireWork options readings.now s))).sequence =
      s.sequence := by
  have hexpired := (expireWork_frame options readings.now s).sequence
  rw [← hexpired]
  unfold activate applyOutboundCandidate
  split <;> split <;> rfl

/-- A turn with a packet to send throws only when a burst is sent and the counter has run out. -/
theorem drain_returns_iff {id : ℕ} (hid : 1 ≤ id ∧ id ≤ uint64Max) {pending : PendingPacket}
    (hcut : Cut pending.fragments) (degraded passed s : AcousticSession) :
    (∃ t, (if pending.attempts ≥ maxAttempts then (.ok degraded : Outcome)
        else if missingFragments pending = [] then .ok passed
        else sendBurst options id pending (missingFragments pending) s) = .ok t) ↔
      (pending.attempts < maxAttempts ∧ missingFragments pending ≠ [] →
        s.sequence ≤ uint32Max) := by
  by_cases hattempts : pending.attempts ≥ maxAttempts
  · rw [if_pos hattempts]
    constructor
    · intro _ hburst
      omega
    · intro _
      exact ⟨_, rfl⟩
  · rw [if_neg hattempts]
    by_cases hmissing : missingFragments pending = []
    · rw [if_pos hmissing]
      constructor
      · intro _ hburst
        exact absurd hmissing hburst.2
      · intro _
        exact ⟨_, rfl⟩
    · rw [if_neg hmissing, sendBurst_returns_iff hid pending (missing_wellFormed hcut)]
      constructor
      · intro h _
        exact h
      · intro h
        exact h ⟨not_le.mp hattempts, hmissing⟩

/-- Using the turn throws only when a burst is sent and the counter has run out. Expiry and
activation keep the counter, so it is the one before the call. -/
theorem driveTurn_returns_iff {id : ℕ} (hid : 1 ≤ id ∧ id ≤ uint64Max)
    (hready : s.state = .ready) (hsession : s.link.sessionId = some id)
    (hlive : ActiveLive readings.now s) (hstocked : Stocked (core s))
    (hcut : ∀ pending ∈ pendingPackets s, Cut pending.fragments)
    (hwork : (expireWork options readings.now s).delivery.queues ≠ ⟨[], [], []⟩) :
    (∃ t, driveTurn options readings s = .ok t) ↔
      (Bursts options.role s → s.sequence ≤ uint32Max) := by
  obtain ⟨pending, hpending, hwhole, hbursts⟩ :=
    activate_expired options hlive hstocked hcut hwork
  have hcounter := sequence_activate options readings s
  have hframe : LiveFrame s (expireWork options readings.now s) := expireWork_live hlive
  obtain ⟨hstate, hlink, -, howner, hawaiting, -⟩ := hframe
  unfold driveTurn
  dsimp only
  rw [hlink, hsession]
  dsimp only
  rw [hstate, hready, howner, hawaiting]
  by_cases hturn : s.delivery.turnOwner = some options.role ∧ s.delivery.awaitingAck = false
  · have hgo : ¬(AcousticSessionState.ready ≠ .ready ∨
        s.delivery.turnOwner ≠ some options.role ∨ s.delivery.awaitingAck = true) := by
      rw [hturn.1, hturn.2]
      simp
    have hiff : Bursts options.role s ↔
        pending.attempts < maxAttempts ∧ missingFragments pending ≠ [] := by
      constructor
      · intro h
        exact hbursts.mp h.2.2
      · intro h
        exact ⟨hturn.1, hturn.2, hbursts.mpr h⟩
    rw [if_neg hgo, hpending, hiff, ← hcounter]
    exact drain_returns_iff hid hwhole _ _ _
  · have hstop : AcousticSessionState.ready ≠ .ready ∨
        s.delivery.turnOwner ≠ some options.role ∨ s.delivery.awaitingAck = true := by
      by_cases howned : s.delivery.turnOwner = some options.role
      · refine .inr (.inr ?_)
        by_contra hfree
        exact hturn ⟨howned, Bool.eq_false_iff.mpr hfree⟩
      · exact .inr (.inl howned)
    rw [if_pos hstop]
    constructor
    · intro _ hburst
      exact absurd ⟨hburst.1, hburst.2.1⟩ hturn
    · intro _
      exact ⟨_, rfl⟩

/-- A packet can be cut, and the burst that may follow can be closed. -/
def Sendable (options : AcousticSessionOptions) (packet : Bytes) (s : AcousticSession) : Prop :=
  ∃ settings, s.commitment.settings = some settings ∧
    packet.length ≤ fas1MaxFragments * (outboundOf options settings).payloadBytes ∧
    s.sequence + ceilDivide packet.length (outboundOf options settings).payloadBytes ≤
      uint32Max + 1 ∧
    (Bursts options.role s →
      s.sequence + ceilDivide packet.length (outboundOf options settings).payloadBytes ≤ uint32Max)

/-- A packet is cut into at most sixteen pieces if and only if it is that short. -/
theorem ceilDivide_le_iff {length payloadBytes count : ℕ} (hlength : 1 ≤ length)
    (hpayload : 1 ≤ payloadBytes) :
    ceilDivide length payloadBytes ≤ count ↔ length ≤ count * payloadBytes := by
  obtain ⟨hpos, hcover, hlast⟩ := ceilDivide_bounds hlength hpayload
  constructor
  · intro h
    calc length ≤ payloadBytes * ceilDivide length payloadBytes := hcover
      _ ≤ payloadBytes * count := Nat.mul_le_mul_left _ h
      _ = count * payloadBytes := Nat.mul_comm _ _
  · intro h
    have hless : payloadBytes * (ceilDivide length payloadBytes - 1) < payloadBytes * count := by
      rw [Nat.mul_comm payloadBytes count]
      exact lt_of_lt_of_le hlast h
    have hcount := Nat.lt_of_mul_lt_mul_left hless
    omega

/-- The payload size of the own direction fits one body. -/
theorem outbound_fits (hstocked : Stocked (core s)) {settings : AcousticSettings}
    (hsettings : s.commitment.settings = some settings) :
    FitsBody (outboundOf options settings).payloadBytes := by
  have hboth := hstocked.settings settings hsettings
  unfold outboundOf
  cases options.role
  · exact hboth.1
  · exact hboth.2

/-- A packet of a session can be cut exactly if its fragments are few enough and their numbers are
not used up. -/
theorem admissible_iff {id packetId payloadBytes : ℕ} {packet : Bytes} (role : AcousticRole)
    (sequence : ℕ) (hpacket : 1 ≤ packet.length ∧ packet.length ≤ fas1MaxPacketBytes)
    (hid : 1 ≤ id ∧ id ≤ uint64Max) (hpacketId : 1 ≤ packetId ∧ packetId ≤ uint32Max)
    (hfits : FitsBody payloadBytes) :
    (⟨packet, id, sequence, packetId, senderFlag role, payloadBytes⟩ :
        FragmentPacketInput).Admissible ↔
      packet.length ≤ fas1MaxFragments * payloadBytes ∧
        sequence + ceilDivide packet.length payloadBytes ≤ uint32Max + 1 := by
  have hcount := (ceilDivide_bounds hpacket.1 hfits.1).1
  constructor
  · intro h
    have hfew := (ceilDivide_le_iff hpacket.1 hfits.1).mp h.count.2
    have hsequence : sequence + (ceilDivide packet.length payloadBytes - 1) ≤ uint32Max :=
      h.sequence
    exact ⟨hfew, by omega⟩
  · rintro ⟨hfew, hsequence⟩
    have hfragments := (ceilDivide_le_iff hpacket.1 hfits.1).mpr hfew
    have hactive : id ≠ 0 := by omega
    have hnumbered : packetId ≠ 0 := by omega
    have hrange : sequence + (ceilDivide packet.length payloadBytes - 1) ≤ uint32Max := by
      omega
    exact ⟨hpacket, ⟨hactive, hid.2⟩, ⟨hnumbered, hpacketId.2⟩, hfits, ⟨hcount, hfragments⟩,
      hrange⟩

/-- Using the turn for a packet that was just queued throws only when the burst cannot be closed
after its fragments were numbered. -/
theorem driveTurn_accepted {id : ℕ} {pending : PendingPacket} (hready : s.state = .ready)
    (hsession : s.link.sessionId = some id) (hlive : ActiveLive readings.now s)
    (hanchored : Anchored s) (hstocked : Stocked (core s)) (hcut : Cut pending.fragments)
    (huntouched : Untouched pending) (hexpires : readings.now ≤ pending.expiresAt) :
    (∃ t, driveTurn options readings (acceptPacket id pending
        { s with delivery.packetId := nextPacketId s.delivery.packetId }) = .ok t) ↔
      (Bursts options.role s → s.sequence + pending.fragments.length ≤ uint32Max) := by
  generalize haccepted : acceptPacket id pending
    { s with delivery.packetId := nextPacketId s.delivery.packetId } = u
  have hqueued : Stays options.role s u := by
    subst haccepted
    exact (acceptPacket_stays id hcut _).after rfl rfl rfl
  have hafter : Stocked (core u) := by
    subst haccepted
    refine ⟨hstocked.selected, hstocked.settings, fun other hmem => ?_,
      nextPacketId_bounds hstocked.packetId⟩
    rcases mem_pushPacket hmem with rfl | hmem
    · exact huntouched
    · exact hstocked.queued other hmem
  have hwork : (expireWork options readings.now u).delivery.queues ≠ ⟨[], [], []⟩ := by
    subst haccepted
    rw [(expireWork_frame options readings.now _).queues]
    exact pushPacket_retained _ _ hexpires
  have hcounter : u.sequence = s.sequence + pending.fragments.length := by
    rw [← haccepted]
    rfl
  have hturn : Bursts options.role u ↔ Bursts options.role s := by
    subst haccepted
    exact Iff.rfl
  rw [← hturn, ← hcounter]
  refine driveTurn_returns_iff (hanchored.bounds id hsession) ?_ ?_ ?_ hafter
    (hanchored.stays hqueued).packets hwork
  · rw [← haccepted]
    exact hready
  · rw [hqueued.sessionId, hsession]
  · rw [← haccepted]
    exact hlive

/-- A new packet is queued exactly if it can be sent. Cutting it into fragments may throw, and so
may the turn that is used at once. -/
theorem queueNewPacket_returns_iff {id : ℕ} {packet : Bytes} {trafficClass : AcousticTrafficClass}
    (hpacket : 1 ≤ packet.length ∧ packet.length ≤ fas1MaxPacketBytes)
    (hready : s.state = .ready) (hsession : s.link.sessionId = some id)
    (hlive : ActiveLive readings.now s) (hanchored : Anchored s) (hstocked : Stocked (core s)) :
    (∃ result, queueNewPacket options readings id packet trafficClass s = .ok result) ↔
      Sendable options packet s := by
  unfold queueNewPacket Sendable
  cases hsettings : s.commitment.settings with
  | none =>
    simp only [outboundSettings, hsettings, throwIn, error_bind]
    constructor
    · rintro ⟨result, hresult⟩
      cases hresult
    · rintro ⟨settings, hnone, -⟩
      cases hnone
  | some settings =>
    have hfits : FitsBody (outboundOf options settings).payloadBytes :=
      outbound_fits hstocked hsettings
    simp only [outboundSettings, hsettings, ok_bind, Option.some.injEq, exists_eq_left']
    generalize (outboundOf options settings).payloadBytes = payloadBytes at hfits ⊢
    have hpacketId : 1 ≤ s.delivery.packetId ∧ s.delivery.packetId ≤ uint32Max := hstocked.packetId
    have hadmissible := admissible_iff options.role s.sequence hpacket
      (hanchored.bounds id hsession) hpacketId hfits
    cases hfragments : fragmentPacket _ with
    | error message =>
      constructor
      · rintro ⟨result, hresult⟩
        cases hresult
      · rintro ⟨hfew, hsequence, -⟩
        rw [fragmentPacket_of_admissible (hadmissible.mpr ⟨hfew, hsequence⟩)] at hfragments
        cases hfragments
    | ok fragments =>
      obtain ⟨hcuttable, hwhole⟩ := fragmentPacket_ok hfragments
      obtain ⟨hfew, hsequence⟩ := hadmissible.mp hcuttable
      have hlength : fragments.length = ceilDivide packet.length payloadBytes := by
        rw [hwhole, List.length_map, List.length_range]
      have hcut : Cut fragments := cut_of_fragmentPacket hfragments (senderFlag_cases options.role)
      simp only [attempt, ok_bind]
      generalize hpending : ({
        packetId := s.delivery.packetId, packet, fragments, trafficClass
        expiresAt := readings.now + maxPacketAgeMs
        attempts := 0, acknowledged := 0 } : PendingPacket) = pending
      have hdrive : (∃ t, driveTurn options readings (acceptPacket id pending
          { s with delivery.packetId := nextPacketId s.delivery.packetId }) = .ok t) ↔
            (Bursts options.role s → s.sequence + pending.fragments.length ≤ uint32Max) := by
        subst hpending
        exact driveTurn_accepted hready hsession hlive hanchored hstocked hcut ⟨rfl, rfl⟩
          (Nat.le_add_right _ _)
      have hcount : pending.fragments.length = ceilDivide packet.length payloadBytes := by
        rw [← hpending, hlength]
      rw [hcount] at hdrive
      rw [← hdrive]
      constructor
      · rintro ⟨result, hresult⟩
        obtain ⟨t, ht, -⟩ := bind_ok hresult
        exact ⟨hfew, hsequence, t, ht⟩
      · rintro ⟨-, -, t, ht⟩
        rw [ht, ok_bind]
        exact ⟨_, rfl⟩

/-- A queued packet is accepted. -/
theorem queueNewPacket_accepts {id : ℕ} {packet : Bytes} {trafficClass : AcousticTrafficClass}
    {result : AcousticQueueResult}
    (h : queueNewPacket options readings id packet trafficClass s = .ok (result, t)) :
    result.accepted = true := by
  unfold queueNewPacket at h
  dsimp only at h
  obtain ⟨outbound, -, h⟩ := bind_ok h
  obtain ⟨fragments, -, h⟩ := bind_ok h
  obtain ⟨u, -, h⟩ := bind_ok h
  cases h
  rfl

/-- An unexpired pending packet of the class has the same bytes. -/
def Waiting (now : ℕ) (packet : Bytes) (trafficClass : AcousticTrafficClass)
    (s : AcousticSession) : Prop :=
  ∃ entry ∈ retained now (pendingPackets s),
    entry.trafficClass = trafficClass ∧ entry.packet = packet

/-- Offering a packet returns, a packet within bounds is accepted by a ready session with room, and
a refusal only drops what has expired. -/
def Total (options : AcousticSessionOptions) (readings : Readings) (packet : Bytes)
    (trafficClass : AcousticTrafficClass) (s : AcousticSession) : Prop :=
  ∃ result t, enqueuePacket options readings packet trafficClass s = .ok (result, t) ∧
    (s.state = .ready → 1 ≤ packet.length ∧ packet.length ≤ fas1MaxPacketBytes →
      (pendingPackets s).length < maxQueuedPackets → result.accepted = true) ∧
    (result.accepted = false → t = expireWork options readings.now s)

/-- A ready session can keep the promise for a packet within bounds: the packet being sent has
expired only if there was no room, and a packet that is new and has room can be sent. -/
def Serves (options : AcousticSessionOptions) (now : ℕ) (packet : Bytes)
    (trafficClass : AcousticTrafficClass) (s : AcousticSession) : Prop :=
  s.state = .ready → 1 ≤ packet.length ∧ packet.length ≤ fas1MaxPacketBytes →
    (¬ActiveLive now s → maxQueuedPackets ≤ (pendingPackets s).length) ∧
    (ActiveLive now s → ¬Waiting now packet trafficClass s →
      (retained now (pendingPackets s)).length < maxQueuedPackets → Sendable options packet s)

/-- A refusal that only drops what has expired. -/
theorem total_of_refused {packet : Bytes} {trafficClass : AcousticTrafficClass} {reason : String}
    (h : enqueuePacket options readings packet trafficClass s =
      .ok ({ accepted := false, reason := some reason }, expireWork options readings.now s)) :
    Total options readings packet trafficClass s ↔ (s.state = .ready →
      1 ≤ packet.length ∧ packet.length ≤ fas1MaxPacketBytes →
        maxQueuedPackets ≤ (pendingPackets s).length) := by
  unfold Total
  rw [h]
  constructor
  · rintro ⟨result, t, hresult, haccepts, -⟩ hready hpacket
    cases hresult
    by_contra hroom
    cases haccepts hready hpacket (not_le.mp hroom)
  · intro hfull
    refine ⟨_, _, rfl, fun hready hpacket hroom => ?_, fun _ => rfl⟩
    exact absurd (hfull hready hpacket) (not_le.mpr hroom)

/-- An answer that accepts keeps the promise. -/
theorem total_of_accepted {packet : Bytes} {trafficClass : AcousticTrafficClass}
    {result : AcousticQueueResult}
    (h : enqueuePacket options readings packet trafficClass s = .ok (result, t))
    (haccepted : result.accepted = true) : Total options readings packet trafficClass s := by
  refine ⟨result, t, h, fun _ _ _ => haccepted, fun hrefused => ?_⟩
  rw [haccepted] at hrefused
  cases hrefused

/-- Expiry that leaves the packet being sent changes nothing about what can be sent. -/
theorem sendable_expireWork {packet : Bytes} (hlive : ActiveLive now s) :
    Sendable options packet (expireWork options now s) ↔ Sendable options packet s := by
  have hframe : LiveFrame s (expireWork options now s) := expireWork_live hlive
  have hsequence := (expireWork_frame options now s).sequence
  unfold Sendable Bursts
  rw [hframe.commitment, hframe.turnOwner, hframe.awaitingAck, hframe.active, hsequence]

/-- Expiry keeps the settings and the queues in order. -/
theorem stocked_expireWork (hstocked : Stocked (core s)) :
    Stocked (core (expireWork options now s)) := by
  have hmoves : Moves ⟨options.role, core s, now, none, [], True, True⟩ (core s)
      (core (expireWork options now s)) := expireWork_moves .refl rfl
  generalize core (expireWork options now s) = c at hmoves ⊢
  induction hmoves with
  | refl => exact hstocked
  | tail _ hmove ih => exact stocked_move hmove ih (fun candidate hmem => (by cases hmem))

/-- Only a ready session whose packet being sent has not expired is ready after expiry. -/
theorem expireWork_ready_iff :
    (expireWork options now s).state = .ready ↔ s.state = .ready ∧ ActiveLive now s := by
  by_cases hlive : ActiveLive now s
  · have hframe : LiveFrame s (expireWork options now s) := expireWork_live hlive
    rw [hframe.state]
    constructor
    · intro hready
      exact ⟨hready, hlive⟩
    · intro h
      exact h.1
  · have hstale : (expireWork options now s).state ≠ .ready := expireWork_stale hlive
    constructor
    · intro hready
      exact absurd hready hstale
    · intro h
      exact absurd h.2 hlive

/-- A session that is not ready refuses. -/
theorem enqueuePacket_notReady (packet : Bytes) (trafficClass : AcousticTrafficClass)
    (h : (expireWork options readings.now s).state ≠ .ready) :
    enqueuePacket options readings packet trafficClass s =
      .ok ({ accepted := false, reason := some "acoustic_not_ready" },
        expireWork options readings.now s) := by
  unfold enqueuePacket
  dsimp only
  split
  · rfl
  · rw [if_pos h]

/-- A packet out of bounds is refused. -/
theorem total_of_outside {packet : Bytes} {trafficClass : AcousticTrafficClass}
    (hready : s.state = .ready) (hlive : ActiveLive readings.now s)
    (hpacket : ¬(1 ≤ packet.length ∧ packet.length ≤ fas1MaxPacketBytes))
    (hanchored : Anchored s) : Total options readings packet trafficClass s := by
  have hexpired : Stays options.role s (expireWork options readings.now s) :=
    expireWork_stays readings.now s
  obtain ⟨id, hsession⟩ := Option.ne_none_iff_exists'.mp (hanchored.ready hready)
  have hcall : enqueuePacket options readings packet trafficClass s =
      .ok ({ accepted := false, reason := some "acoustic_packet_bounds" },
        expireWork options readings.now s) := by
    have hsame : ¬(expireWork options readings.now s).state ≠ .ready :=
      not_not.mpr (expireWork_ready_iff.mpr ⟨hready, hlive⟩)
    have houtside : packet.length < 1 ∨ packet.length > fas1MaxPacketBytes := by omega
    unfold enqueuePacket
    dsimp only
    rw [hexpired.sessionId, hsession]
    dsimp only
    rw [if_neg hsame, if_pos houtside]
  rw [total_of_refused hcall]
  intro _ hinside
  exact absurd hinside hpacket

/-- What a ready session is asked for a packet within bounds. -/
theorem enqueuePacket_ready (options : AcousticSessionOptions) {id : ℕ} {packet : Bytes}
    (trafficClass : AcousticTrafficClass) (hready : s.state = .ready) (hlive : ActiveLive readings.now s)
    (hpacket : 1 ≤ packet.length ∧ packet.length ≤ fas1MaxPacketBytes)
    (hsession : s.link.sessionId = some id) :
    (∀ duplicate, (retained readings.now (pendingPackets s)).find?
        (fun entry => entry.trafficClass = trafficClass && entry.packet = packet) =
          some duplicate →
      ∃ t, enqueuePacket options readings packet trafficClass s =
        .ok ({ accepted := true, packetId := some duplicate.packetId }, t)) ∧
    ((retained readings.now (pendingPackets s)).find?
        (fun entry => entry.trafficClass = trafficClass && entry.packet = packet) = none →
      enqueuePacket options readings packet trafficClass s =
        if (retained readings.now (pendingPackets s)).length ≥ maxQueuedPackets then
          .ok ({ accepted := false, reason := some "acoustic_queue_full" },
            expireWork options readings.now s)
        else queueNewPacket options readings id packet trafficClass
          (expireWork options readings.now s)) := by
  have hpackets : pendingPackets (expireWork options readings.now s) =
      retained readings.now (pendingPackets s) := pendingPackets_expireWork hlive
  have hexpired : Stays options.role s (expireWork options readings.now s) :=
    expireWork_stays readings.now s
  have hinside : ¬(packet.length < 1 ∨ packet.length > fas1MaxPacketBytes) := by omega
  have hsame : ¬(expireWork options readings.now s).state ≠ .ready :=
    not_not.mpr (expireWork_ready_iff.mpr ⟨hready, hlive⟩)
  constructor
  · intro duplicate hfind
    unfold enqueuePacket
    dsimp only
    rw [hexpired.sessionId, hsession]
    dsimp only
    rw [if_neg hsame, if_neg hinside, hpackets, hfind]
    exact ⟨_, rfl⟩
  · intro hfind
    unfold enqueuePacket
    dsimp only
    rw [hexpired.sessionId, hsession]
    dsimp only
    rw [if_neg hsame, if_neg hinside, pendingPackets_length, hpackets, hfind]

/-- What a ready session does with a packet within bounds: a duplicate is found among the packets
that have not expired, or the packet is queued where there is room. -/
theorem total_of_ready {packet : Bytes} {trafficClass : AcousticTrafficClass}
    (hready : s.state = .ready) (hlive : ActiveLive readings.now s)
    (hpacket : 1 ≤ packet.length ∧ packet.length ≤ fas1MaxPacketBytes)
    (hanchored : Anchored s) (hstocked : Stocked (core s)) :
    Total options readings packet trafficClass s ↔
      (¬Waiting readings.now packet trafficClass s →
        (retained readings.now (pendingPackets s)).length < maxQueuedPackets →
          Sendable options packet s) := by
  have hframe : LiveFrame s (expireWork options readings.now s) := expireWork_live hlive
  have hsendable : Sendable options packet (expireWork options readings.now s) ↔
      Sendable options packet s := sendable_expireWork hlive
  obtain ⟨id, hsession⟩ := Option.ne_none_iff_exists'.mp (hanchored.ready hready)
  have hexpired : Stays options.role s (expireWork options readings.now s) :=
    expireWork_stays readings.now s
  obtain ⟨hsome, hnone⟩ := enqueuePacket_ready options trafficClass hready hlive hpacket hsession
  cases hfind : (retained readings.now (pendingPackets s)).find?
      (fun entry => entry.trafficClass = trafficClass && entry.packet = packet) with
  | some duplicate =>
    obtain ⟨t, hcall⟩ := hsome duplicate hfind
    have hwaiting : Waiting readings.now packet trafficClass s := by
      have hmatch := List.find?_some hfind
      rw [Bool.and_eq_true, decide_eq_true_eq, decide_eq_true_eq] at hmatch
      exact ⟨duplicate, List.mem_of_find?_eq_some hfind, hmatch⟩
    constructor
    · intro _ hnew
      exact absurd hwaiting hnew
    · intro _
      exact total_of_accepted hcall rfl
  | none =>
    have hcall := hnone hfind
    have hnew : ¬Waiting readings.now packet trafficClass s := by
      rintro ⟨entry, hmem, hclass, hbytes⟩
      have hother := List.find?_eq_none.mp hfind entry hmem
      simp [hclass, hbytes] at hother
    have hfewer : (retained readings.now (pendingPackets s)).length ≤ (pendingPackets s).length :=
      List.length_filter_le _ _
    by_cases hroom : (retained readings.now (pendingPackets s)).length ≥ maxQueuedPackets
    · rw [if_pos hroom] at hcall
      rw [total_of_refused hcall]
      constructor
      · intro _ _ hfree
        omega
      · intro _ _ _
        omega
    · rw [if_neg hroom] at hcall
      have hqueues : (∃ result, queueNewPacket options readings id packet trafficClass
          (expireWork options readings.now s) = .ok result) ↔ Sendable options packet s := by
        rw [← hsendable]
        refine queueNewPacket_returns_iff hpacket ?_ ?_ ?_ (hanchored.stays hexpired) ?_
        · rw [hframe.state, hready]
        · rw [hexpired.sessionId, hsession]
        · intro active hactive
          rw [hframe.active] at hactive
          exact hlive active hactive
        · exact stocked_expireWork hstocked
      constructor
      · rintro ⟨result, t, hresult, -⟩ _ _
        rw [hcall] at hresult
        exact hqueues.mp ⟨_, hresult⟩
      · intro hsend
        obtain ⟨⟨result, t⟩, hresult⟩ := hqueues.mpr (hsend hnew (not_le.mp hroom))
        exact total_of_accepted (hcall.trans hresult) (queueNewPacket_accepts hresult)

end Call

/-- Offering a packet keeps its promise in exactly the reachable states that serve it. Once old work
has expired the session is ready and the packet is judged, or the call is refused. -/
theorem total_iff_serves (options : AdmittedOptions) (events : List (Readings × Event))
    (readings : Readings) (packet : Bytes) (trafficClass : AcousticTrafficClass) :
    Total options.toAcousticSessionOptions readings packet trafficClass
        (runSession options.toAcousticSessionOptions events) ↔
      Serves options.toAcousticSessionOptions readings.now packet trafficClass
        (runSession options.toAcousticSessionOptions events) := by
  have hanchored := anchored_run options.toAcousticSessionOptions events
  have hstocked := stocked_run options events
  generalize runSession options.toAcousticSessionOptions events = s at hanchored hstocked ⊢
  by_cases hready : s.state = .ready
  · by_cases hlive : ActiveLive readings.now s
    · by_cases hpacket : 1 ≤ packet.length ∧ packet.length ≤ fas1MaxPacketBytes
      · rw [total_of_ready hready hlive hpacket hanchored hstocked]
        constructor
        · intro h _ _
          exact ⟨fun hstale => absurd hlive hstale, fun _ => h⟩
        · intro h
          exact (h hready hpacket).2 hlive
      · have hrefused : Total options.toAcousticSessionOptions readings packet trafficClass s :=
          total_of_outside hready hlive hpacket hanchored
        constructor
        · intro _ _ hinside
          exact absurd hinside hpacket
        · intro _
          exact hrefused
    · have hstale : (expireWork options.toAcousticSessionOptions readings.now s).state ≠ .ready :=
        expireWork_stale hlive
      rw [total_of_refused (enqueuePacket_notReady packet trafficClass hstale)]
      constructor
      · intro hfull _ hpacket
        exact ⟨fun _ => hfull hready hpacket, fun h => absurd h hlive⟩
      · intro h _ hpacket
        exact (h hready hpacket).1 hlive
  · have hstays : (expireWork options.toAcousticSessionOptions readings.now s).state ≠ .ready :=
      fun h => hready (expireWork_ready_iff.mp h).1
    rw [total_of_refused (enqueuePacket_notReady packet trafficClass hstays)]
    constructor
    · intro _ h
      exact absurd h hready
    · intro _ h
      exact absurd h hready

set_option maxRecDepth 8000 in
/-- A ready end with one-byte payloads and an empty queue throws on a packet of seventeen bytes. -/
theorem not_total_bench : ¬∀ (options : AdmittedOptions) (events : List (Readings × Event))
    (readings : Readings) (packet : Bytes) (trafficClass : AcousticTrafficClass),
    (runSession options.toAcousticSessionOptions events).io.sent.length < 2 ^ 32 →
      Total options.toAcousticSessionOptions readings packet trafficClass
        (runSession options.toAcousticSessionOptions events) := by
  intro h
  obtain ⟨events, hevents⟩ := (linkState_run benchLink benchEstablish .a).session
  have hsession : (runLink benchLink benchEstablish).session.a =
    runSession (benchOptions .a) events := hevents
  have hfew : (runLink benchLink benchEstablish).session.a.io.sent.length < 2 ^ 32 := by
    decide +kernel
  have hthrows : (enqueuePacket (benchOptions .a) (benchReadings .a) (List.replicate 17 0) .ordinary
      (runLink benchLink benchEstablish).session.a).isOk = false := by
    decide +kernel
  rw [hsession] at hfew hthrows
  obtain ⟨result, t, hreturns, -⟩ := h ⟨benchOptions .a, benchOptions_admitted .a⟩ events
    (benchReadings .a) (List.replicate 17 0) .ordinary hfew
  rw [hreturns] at hthrows
  cases hthrows

end Fipwave.EnqueueTotality
