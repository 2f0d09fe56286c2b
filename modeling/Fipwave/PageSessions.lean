import Fipwave.PageTraffic
import Fipwave.PacketDelivery

/-!
# The sessions of two pages

Two pages hear each other, and each of them may make its session anew. What a
session sent before it was disposed of may still be heard, and so may what its
last timers and promises make it send; but it hears nothing and accepts no
packet. So the current session of a page hands over only packets that some
session of the other page has accepted, as long as no session that is taken up
again accepts packets.
-/

namespace Fipwave.PageSessions

open ByteWords AcousticProtocol AcousticHandshake AcousticState AcousticSession AcousticLink
  DeliveryMachine DeliveryRefinement PacketAssembly PacketDelivery PacketOrder AcceptedPackets
  BrowserPage PageTraffic

section Modify

variable {α : Type} {f : α → α} {values : List α} {index : ℕ}

/-- What is in a list after one value was changed was in it, or is what became of the value. -/
theorem mem_of_mem_modify {u : α} (h : u ∈ values.modify index f) :
    u ∈ values ∨ ∃ v ∈ values, u = f v := by
  obtain ⟨k, hk⟩ := List.mem_iff_getElem?.mp h
  rw [List.getElem?_modify] at hk
  obtain ⟨v, hv, hu⟩ := Option.map_eq_some_iff.mp hk
  have hmem := List.mem_of_getElem? hv
  split at hu
  · exact .inr ⟨v, hmem, hu.symm⟩
  · exact .inl (hu ▸ hmem)

/-- What was in a list stays in it when a value is changed, or it is the value. -/
theorem mem_modify_of_mem {v : α} (h : v ∈ values) :
    v ∈ values.modify index f ∨ f v ∈ values.modify index f := by
  obtain ⟨k, hk⟩ := List.mem_iff_getElem?.mp h
  have hchanged := List.getElem?_modify f index values k
  rw [hk, Option.map_eq_map, Option.map_some] at hchanged
  split at hchanged
  · exact .inr (List.mem_of_getElem? hchanged)
  · exact .inl (List.mem_of_getElem? hchanged)

end Modify

variable {link : LinkOptions} {readings : Readings} {role : AcousticRole}
  {received : Option Fas1Unit} {past : AcousticRole → Traffic} {ends : PerRole AcousticSession}
  {disposed later : List AcousticSession} {s t : AcousticSession} {event : PageEvent}
  {action : Action}

section Disposed

/-- A session that is offered no packet makes moves of its own. -/
theorem moves_quiet (hquiet : ∀ packet trafficClass, action ≠ .enqueuePacket packet trafficClass)
    (h : Orderly role s) :
    Moves ⟨role, core s, readings.now, none, (link.of role).candidates, True, False⟩ (core s)
      (core (act (link.of role) readings action s)) :=
  act_moves readings action rfl rfl (link.of_role role).symm rfl (fun _ => trivial)
    (fun packet trafficClass haction => absurd haction (hquiet packet trafficClass)) h.fit

/-- It keeps its packets in order. -/
theorem orderly_quiet (hquiet : ∀ packet trafficClass, action ≠ .enqueuePacket packet trafficClass)
    (h : Orderly role s) : Orderly role (act (link.of role) readings action s) := by
  have hmoves : Moves ⟨role, core s, readings.now, none, (link.of role).candidates, True, False⟩
      (core s) (core (act (link.of role) readings action s)) := moves_quiet hquiet h
  obtain ⟨hqueued, htransmits⟩ := order_moves hmoves not_false h.queued h.transmits
  exact ⟨fit_moves hmoves h.fit, hqueued, htransmits⟩

/-- What it sends is well formed, and comes after what it has sent. -/
theorem sent_quiet (hquiet : ∀ packet trafficClass, action ≠ .enqueuePacket packet trafficClass)
    (h : Orderly role s) :
    ∃ units, (act (link.of role) readings action s).io.sent = s.io.sent ++ units ∧
      ∀ unit ∈ units, unit.WellFormed := by
  have hmoves : Moves ⟨role, core s, readings.now, none, (link.of role).candidates, True, False⟩
      (core s) (core (act (link.of role) readings action s)) := moves_quiet hquiet h
  exact sent_moves hmoves

/-- When a session that was disposed of goes on, they all stay in order. -/
theorem orderly_lingers (horderly : ∀ u ∈ disposed, Orderly role u)
    (hquiet : ∀ packet trafficClass, action ≠ .enqueuePacket packet trafficClass) (index : ℕ) :
    ∀ u ∈ disposed.modify index (act (link.of role) readings action), Orderly role u := by
  intro u hu
  rcases mem_of_mem_modify hu with hold | ⟨v, hv, rfl⟩
  · exact horderly u hold
  · exact orderly_quiet hquiet (horderly v hv)

/-- What they have sent stays sent. -/
theorem sent_lingers (horderly : ∀ u ∈ disposed, Orderly role u)
    (hquiet : ∀ packet trafficClass, action ≠ .enqueuePacket packet trafficClass) (index : ℕ) :
    (pastOf disposed).sent ⊆
      (pastOf (disposed.modify index (act (link.of role) readings action))).sent := by
  intro unit hunit
  obtain ⟨v, hv, hmem⟩ := List.mem_flatMap.mp hunit
  have hafter : v ∈ disposed.modify index (act (link.of role) readings action) ∨
      act (link.of role) readings action v ∈
        disposed.modify index (act (link.of role) readings action) := mem_modify_of_mem hv
  rcases hafter with hkept | hmoved
  · exact List.mem_flatMap.mpr ⟨v, hkept, hmem⟩
  · have hsent : ∃ units, (act (link.of role) readings action v).io.sent = v.io.sent ++ units ∧
        ∀ unit ∈ units, unit.WellFormed := sent_quiet hquiet (horderly v hv)
    obtain ⟨units, hunits, -⟩ := hsent
    refine List.mem_flatMap.mpr ⟨_, hmoved, ?_⟩
    rw [hunits]
    exact List.mem_append_left _ hmem

/-- What they send then is well formed. -/
theorem wellFormed_lingers (horderly : ∀ u ∈ disposed, Orderly role u)
    (hquiet : ∀ packet trafficClass, action ≠ .enqueuePacket packet trafficClass) (index : ℕ)
    (hwf : ∀ unit ∈ (pastOf disposed).sent, unit.WellFormed) :
    ∀ unit ∈ (pastOf (disposed.modify index (act (link.of role) readings action))).sent,
      unit.WellFormed := by
  intro unit hunit
  obtain ⟨u, hu, hmem⟩ := List.mem_flatMap.mp hunit
  rcases mem_of_mem_modify hu with hold | ⟨v, hv, rfl⟩
  · exact hwf unit (List.mem_flatMap.mpr ⟨u, hold, hmem⟩)
  · obtain ⟨units, hunits, hnew⟩ := sent_quiet hquiet (horderly v hv)
    rw [hunits] at hmem
    rcases List.mem_append.mp hmem with hmem | hmem
    · exact hwf unit (List.mem_flatMap.mpr ⟨v, hv, hmem⟩)
    · exact hnew unit hmem

/-- They accept nothing. -/
theorem accepted_lingers
    (hquiet : ∀ packet trafficClass, action ≠ .enqueuePacket packet trafficClass) (index : ℕ) :
    (pastOf (disposed.modify index (act (link.of role) readings action))).accepted =
      (pastOf disposed).accepted := by
  have hsame : (disposed.modify index (act (link.of role) readings action)).map (·.io.accepted) =
      disposed.map (·.io.accepted) := accepted_modify hquiet
  unfold pastOf
  dsimp only
  rw [List.flatMap_def, List.flatMap_def, hsame]

/-- The sessions convey what was accepted after one that was disposed of went on. -/
theorem conveys_lingers (h : Conveys past ends) (hpast : past role = pastOf disposed)
    (horderly : ∀ u ∈ disposed, Orderly role u)
    (hquiet : ∀ packet trafficClass, action ≠ .enqueuePacket packet trafficClass) (index : ℕ) :
    Conveys (Function.update past role
      (pastOf (disposed.modify index (act (link.of role) readings action)))) ends := by
  have hwf : ∀ unit ∈ (pastOf disposed).sent, unit.WellFormed := by
    intro unit hunit
    rw [← hpast] at hunit
    exact h.sent role unit (List.mem_append_left _ hunit)
  have hbefore := h.before role
  rw [hpast] at hbefore
  have hother : ∀ other, other ≠ role → Function.update past role
      (pastOf (disposed.modify index (act (link.of role) readings action))) other = past other :=
    fun other hne => Function.update_of_ne hne _ _
  refine h.lingering (fun other => ?_) (fun other => ?_) (fun other => ?_) (fun other => ?_) <;>
    by_cases hrole : other = role
  · subst hrole
    rw [Function.update_self, hpast]
    exact sent_lingers horderly hquiet index
  · rw [hother other hrole]
    exact fun _ => id
  · subst hrole
    rw [Function.update_self, hpast]
    exact accepted_lingers hquiet index
  · rw [hother other hrole]
  · subst hrole
    rw [Function.update_self]
    exact wellFormed_lingers horderly hquiet index hwf
  · rw [hother other hrole]
    exact fun unit hunit => h.sent other unit (List.mem_append_left _ hunit)
  · subst hrole
    rw [Function.update_self]
    refine ⟨cut_pastOf (orderly_lingers horderly hquiet index), ?_⟩
    rw [accepted_lingers hquiet]
    exact hbefore.unique
  · rw [hother other hrole]
    exact h.before other

end Disposed

section Current

/-- A session of the link at the beginning of a step; its packet counter does not come round. -/
def context (link : LinkOptions) (readings : Readings) (ends : PerRole AcousticSession)
    (role : AcousticRole) (received : Option Fas1Unit) : Context :=
  ⟨role, core (ends.get role), readings.now, received, (link.of role).candidates, True, False⟩

/-- The moves of one end keep the packets under way those of the peer, past sessions included. -/
theorem conveys_moves (h : Conveys past ends)
    (hmoves : Moves (context link readings ends role received) (core (ends.get role)) (core s))
    (hlistening : received ≠ none → (ends.get role).subscribed = true)
    (hreceived : ∀ unit, received = some unit → unit ∈ (total past ends (complement role)).sent)
    (hapart : ∀ a ∈ s.io.accepted, a ∈ (ends.get role).io.accepted ∨
      ∀ b ∈ (past role).accepted, a.sessionId ≠ b.sessionId) :
    Conveys past (ends.set s role) :=
  h.step ⟨hmoves, (link.ends.get role).payload_le, not_false, hlistening, hreceived, hapart⟩

/-- One of them goes on by itself, and accepts nothing. -/
theorem conveys_quiet (h : Conveys past ends)
    (hquiet : ∀ packet trafficClass, action ≠ .enqueuePacket packet trafficClass) :
    Conveys past (ends.set (act (link.of role) readings action (ends.get role)) role) := by
  have hmoves : Moves (context link readings ends role none) (core (ends.get role))
      (core (act (link.of role) readings action (ends.get role))) :=
    moves_quiet hquiet (h.orderly role)
  refine conveys_moves h hmoves (fun hnone => absurd rfl hnone) (fun unit hsome => by cases hsome)
    (fun a ha => .inl ?_)
  have hsame : NoNew (ends.get role) (act (link.of role) readings action (ends.get role)) :=
    act_noNew readings hquiet (ends.get role)
  exact hsame ▸ ha

/-- One of them is offered a packet, in a session that is not taken up again. -/
theorem conveys_offered (h : Conveys past ends) (packet : Bytes)
    (trafficClass : AcousticTrafficClass)
    (hcounter : (ends.get role).delivery.packetId ≠ uint32Max)
    (hfresh : ∀ a ∈ (past role).accepted, (ends.get role).link.sessionId ≠ some a.sessionId) :
    Conveys past (ends.set
      (act (link.of role) readings (.enqueuePacket packet trafficClass) (ends.get role)) role) := by
  have hmoves : Moves (context link readings ends role none) (core (ends.get role))
      (core (act (link.of role) readings (.enqueuePacket packet trafficClass) (ends.get role))) :=
    act_moves readings _ rfl rfl (link.of_role role).symm rfl (fun _ => trivial)
      (fun _ _ _ hmax => hcounter hmax) (h.orderly role).fit
  refine conveys_moves h hmoves (fun hnone => absurd rfl hnone) (fun unit hsome => by cases hsome)
    (fun a ha => ?_)
  rcases mem_accepted_enqueue readings packet trafficClass (ends.get role) a ha with
    hold | ⟨-, hsession⟩
  · exact .inl hold
  · refine .inr (fun b hb hsame => hfresh b hb ?_)
    rw [hsession, hsame]

/-- One of them hears a unit of the other page. -/
theorem conveys_hearing (h : Conveys past ends) {unit : Fas1Unit}
    (hsubscribed : (ends.get role).subscribed = true)
    (hunit : unit ∈ (total past ends (complement role)).sent)
    (hmoves : Moves (context link readings ends role (some unit)) (core (ends.get role)) (core s))
    (hsame : NoNew (ends.get role) s) : Conveys past (ends.set s role) := by
  refine conveys_moves h hmoves (fun _ => hsubscribed) (fun other hother => ?_)
    (fun a ha => .inl (hsame ▸ ha))
  rw [← Option.some.inj hother]
  exact hunit

/-- A new session takes the place of one that is disposed of. -/
theorem conveys_made (h : Conveys past ends) (hpast : past role = pastOf disposed) :
    Conveys (Function.update past role
        (pastOf (disposed ++ [act (link.of role) readings .dispose (ends.get role)])))
      (ends.set (initialSession role) role) := by
  have hdisposed : Conveys past
      (ends.set (act (link.of role) readings .dispose (ends.get role)) role) :=
    conveys_quiet h (fun _ _ heq => by cases heq)
  have hset : ∀ s t : AcousticSession, (ends.set s role).set t role = ends.set t role := by
    intro s t
    cases role <;> rfl
  rw [← hset (act (link.of role) readings .dispose (ends.get role))]
  refine hdisposed.replace ?_ (Function.update_of_ne (by cases role <;> decide) _ _)
  unfold total
  rw [Function.update_self, pastOf_append, hpast, PerRole.get_set_same]

/-- The sessions still convey what was accepted after a step of one of the pages, whether it kept
its session or made a new one. -/
theorem conveys_becomes (h : Conveys past ends) (hpast : past role = pastOf disposed)
    (horderly : ∀ u ∈ disposed, Orderly role u)
    (hbecomes : Becomes (link.of role) readings (ends.get role) disposed event s later)
    (hfresh : ∀ socket data refused, event = .binary socket data refused →
      (ends.get role).delivery.packetId ≠ uint32Max ∧
        ∀ a ∈ (past role).accepted, (ends.get role).link.sessionId ≠ some a.sessionId)
    (hunit : ∀ unit, event = .unit unit → unit ∈ (total past ends (complement role)).sent) :
    Conveys (Function.update past role (pastOf later)) (ends.set s role) := by
  have hstill : Conveys past (ends.set (ends.get role) role) := by
    cases role <;> exact h
  have hrole : role = (link.of role).role := (link.of_role role).symm
  have hkept : Function.update past role (pastOf disposed) = past := by
    rw [← hpast, Function.update_eq_self]
  cases hbecomes with
  | still =>
    rw [hkept]
    exact hstill
  | acts action hquiet =>
    rw [hkept]
    exact conveys_quiet h hquiet
  | offered socket data refused trafficClass hevent hkind =>
    rw [hkept]
    obtain ⟨hcounter, hnew⟩ := hfresh socket data refused hevent
    exact conveys_offered h _ trafficClass hcounter hnew
  | heard unit hevent =>
    rw [hkept]
    by_cases hsubscribed : (ends.get role).subscribed = true
    · have hmoves : Moves (context link readings ends role (some unit)) (core (ends.get role))
          (core (deliverUnit (link.of role) readings unit (ends.get role))) :=
        deliverUnit_moves readings rfl hrole rfl rfl rfl
      exact conveys_hearing h hsubscribed (hunit unit hevent) hmoves (deliverUnit_noNew unit _)
    · rw [deliverUnit, if_neg hsubscribed]
      exact hstill
  | thrown unit hevent hsubscribed =>
    rw [hkept]
    have hmoves : Moves (context link readings ends role (some unit)) (core (ends.get role))
        (core (ThrowingMethod.left (handleUnit (link.of role) readings unit (ends.get role)))) :=
      handleUnit_moves .refl rfl readings hrole rfl rfl rfl
    exact conveys_hearing h hsubscribed (hunit unit hevent) hmoves
      (handleUnit_noNew readings unit _)
  | made hevent =>
    rw [← hrole]
    exact conveys_made h hpast
  | lingers index action hquiet =>
    have hset : ends.set (ends.get role) role = ends := by
      cases role <;> rfl
    rw [hset]
    exact conveys_lingers h hpast horderly hquiet index

/-- The sessions of a page that were disposed of stay in order. -/
theorem orderly_becomes (horderly : ∀ u ∈ disposed, Orderly role u) (hcurrent : Orderly role s)
    (hbecomes : Becomes (link.of role) readings s disposed event t later) :
    ∀ u ∈ later, Orderly role u := by
  cases hbecomes with
  | made hevent =>
    intro u hu
    rcases List.mem_append.mp hu with hu | hu
    · exact horderly u hu
    · rw [List.mem_singleton.mp hu]
      exact orderly_quiet (fun _ _ h => by cases h) hcurrent
  | lingers index action hquiet => exact orderly_lingers horderly hquiet index
  | _ => exact horderly

end Current

end Fipwave.PageSessions
