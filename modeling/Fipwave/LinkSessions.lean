import Fipwave.AcousticLink
import Fipwave.DeliveryRefinement

/-!
# The ends of a link are sessions

A link exchanges decoded units. Every unit an end sent is well formed, so it
has bytes, and the bytes decode to the unit: each end of a run of the link is
a run of its session on bytes. What holds of every session therefore holds of
both ends.
-/

namespace Fipwave.LinkSessions

open TransitionRun AcousticProtocol AcousticHandshake AcousticState AcousticSession AcousticLink
  DeliveryMachine DeliveryRefinement

/-- What holds of one end in every run of a link. -/
structure EndState (link : LinkOptions) (role : AcousticRole) (s : AcousticSession) : Prop where
  /-- Only A has a COMMIT to answer. -/
  fit : acknowledging s.tasks = true → role = .a
  /-- What was sent can be encoded. -/
  sent : ∀ unit ∈ s.io.sent, unit.WellFormed
  /-- The end is a run of its session. -/
  session : ∃ events, s = runSession (link.of role) events

section Step

variable {link : LinkOptions} {role : AcousticRole} {s : AcousticSession}

/-- The moves of one end keep its invariants. -/
theorem endState_moves {x : Context} {s' : AcousticSession} (h : EndState link role s)
    (hrole : x.role = role) (hmoves : Moves x (core s) (core s'))
    (hsession : ∃ events, s' = runSession (link.of role) events) : EndState link role s' := by
  subst hrole
  refine ⟨fit_moves hmoves h.fit, ?_, hsession⟩
  obtain ⟨units, hunits, hwf⟩ := sent_moves hmoves
  have hsent : s'.io.sent = s.io.sent ++ units := hunits
  rw [hsent]
  intro unit hunit
  exact (List.mem_append.mp hunit).elim (h.sent unit) (hwf unit)

/-- One more event extends the run of a session. -/
theorem session_step {options : AcousticSessionOptions} (event : Readings × Event)
    (h : ∃ events, s = runSession options events) :
    ∃ events, step options s event = runSession options events := by
  obtain ⟨events, rfl⟩ := h
  exact ⟨events ++ [event], by simp [runSession, run_append]⟩

/-- An action of one end keeps its invariants. -/
theorem endState_act (readings : Readings) (action : Action) (h : EndState link role s) :
    EndState link role (act (link.of role) readings action s) := by
  have hmoves : Moves ⟨role, core s, readings.now, none, (link.of role).candidates, True, True⟩
      (core s) (core (act (link.of role) readings action s)) :=
    act_moves readings action rfl rfl (link.of_role role).symm rfl (fun _ => trivial)
      (fun _ _ _ _ => trivial) h.fit
  exact endState_moves h rfl hmoves (session_step (readings, .act action) h.session)

/-- Hearing a well formed unit keeps the invariants of the end. -/
theorem endState_deliver (readings : Readings) {unit : Fas1Unit} (hwf : unit.WellFormed)
    (h : EndState link role s) :
    EndState link role (deliverUnit (link.of role) readings unit s) := by
  have hmoves : Moves
      ⟨role, core s, readings.now, some unit, (link.of role).candidates, True, True⟩
      (core s) (core (deliverUnit (link.of role) readings unit s)) :=
    deliverUnit_moves readings rfl (link.of_role role).symm rfl rfl rfl
  refine endState_moves h rfl hmoves ?_
  obtain ⟨raw, hraw⟩ := (encodeFas1_ok_iff unit).mpr hwf
  rw [← receive_encoded (link.of role) readings hraw s]
  exact session_step (readings, .receive raw) h.session

end Step

/-- What holds of both ends in every run. -/
def LinkState (link : LinkOptions) (w : World) : Prop :=
  ∀ role, EndState link role (w.session.get role)

/-- One step of the link keeps the invariants of both ends. -/
theorem linkState_step (link : LinkOptions) (w : World) (event : Readings × LinkEvent)
    (h : LinkState link w) : LinkState link (linkStep link w event) := by
  intro role
  rcases linkStep_cases link w event with hw | ⟨acting, action, -, hw⟩ |
    ⟨receiver, index, unit, harriving, hw⟩
  · rw [hw]
    exact h role
  · rw [hw, PerRole.get_set]
    split
    · next heq =>
      subst heq
      exact endState_act event.1 action (h _)
    · exact h role
  · rw [hw, PerRole.get_set]
    split
    · next heq =>
      subst heq
      have hwf := (h (complement role)).sent unit (List.mem_of_getElem? (arriving_sent harriving))
      exact endState_deliver event.1 hwf (h _)
    · exact h role

/-- The invariants hold before anything is sent. -/
theorem linkState_initial (link : LinkOptions) : LinkState link initialWorld := by
  intro role
  refine ⟨?_, ?_, [], ?_⟩
  · cases role <;>
      simp [initialWorld, PerRole.get, initialSession, acknowledging, chainAcknowledges]
  · cases role <;> simp [initialWorld, PerRole.get, initialSession]
  · rw [runSession, run_nil, link.of_role]
    cases role <;> rfl

/-- In every run of a link both ends are sessions that sent well-formed units. -/
theorem linkState_run (link : LinkOptions) (events : List (Readings × LinkEvent)) :
    LinkState link (runLink link events) :=
  invariant (linkStep link) (linkState_step link) (linkState_initial link) events

end Fipwave.LinkSessions
