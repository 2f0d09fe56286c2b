import Fipwave.AcousticSession

/-!
# Two sessions and the channel between them

The channel keeps, for each end, every unit the end handed to its modem. A
cursor separates the units already taken off the channel from those in
flight. Delivering takes the next unit, losing drops it, and redelivering brings
an earlier unit in again. A channel that only redelivers the unit taken last is
in order and repeats consecutively; without that restriction it reorders.
-/

namespace Fipwave.AcousticLink

open ByteWords TransitionRun AcousticProtocol SettingsCommitment AcousticHandshake AcousticState
  AcousticSession

/-- One value for each end. -/
structure PerRole (α : Type) where
  /-- Value of A. -/
  a : α
  /-- Value of B. -/
  b : α
  deriving DecidableEq, Repr

section PerRole

variable {α : Type}

/-- The value of an end. -/
def PerRole.get (values : PerRole α) : AcousticRole → α
  | .a => values.a
  | .b => values.b

/-- Replace the value of an end. -/
def PerRole.set (values : PerRole α) (value : α) : AcousticRole → PerRole α
  | .a => { values with a := value }
  | .b => { values with b := value }

/-- The value written for a role is read back. -/
@[simp] theorem PerRole.get_set_same (values : PerRole α) (value : α) (role : AcousticRole) :
    (values.set value role).get role = value := by
  cases role <;> rfl

/-- Writing for a role leaves the other. -/
@[simp] theorem PerRole.get_set_complement (values : PerRole α) (value : α)
    (role : AcousticRole) :
    (values.set value role).get (complement role) = values.get (complement role) := by
  cases role <;> rfl

/-- Reading after a write, whatever the two roles. -/
theorem PerRole.get_set (values : PerRole α) (value : α) (written read : AcousticRole) :
    (values.set value written).get read = if read = written then value else values.get read := by
  cases written <;> cases read <;> rfl

end PerRole

/-- Options of both ends. -/
structure LinkOptions where
  /-- Options of each end. -/
  ends : PerRole AdmittedOptions
  /-- Each end has its own role. -/
  role : ∀ r, (ends.get r).role = r

/-- Options of one end. -/
def LinkOptions.of (link : LinkOptions) (role : AcousticRole) : AcousticSessionOptions :=
  (link.ends.get role).toAcousticSessionOptions

/-- The options of a role carry that role. -/
@[simp] theorem LinkOptions.of_role (link : LinkOptions) (role : AcousticRole) :
    (link.of role).role = role := link.role role

/-- Both sessions and how far each channel has been read. -/
structure World where
  /-- The session of each end. -/
  session : PerRole AcousticSession
  /-- Units of each sender taken off the channel. -/
  taken : PerRole ℕ
  deriving DecidableEq, Repr

/-- Units an end handed to its modem. -/
def World.sent (w : World) (role : AcousticRole) : List Fas1Unit :=
  (w.session.get role).io.sent

/-- Two constructed sessions and an empty channel. -/
def initialWorld : World :=
  { session := ⟨initialSession .a, initialSession .b⟩
    taken := ⟨0, 0⟩ }

/-- What happens on the link; a channel event names the receiver. -/
inductive LinkEvent where
  | act (role : AcousticRole) (action : Action)
  | deliver (receiver : AcousticRole)
  | lose (receiver : AcousticRole)
  | redeliver (receiver : AcousticRole) (index : ℕ)
  deriving DecidableEq, Repr

/-- The unit that an event brings to a receiver, with its position. -/
def arriving (w : World) : LinkEvent → Option (AcousticRole × ℕ × Fas1Unit)
  | .deliver receiver =>
    let index := w.taken.get (complement receiver)
    (w.sent (complement receiver))[index]?.map (fun unit => (receiver, index, unit))
  | .redeliver receiver index =>
    (w.sent (complement receiver))[index]?.map (fun unit => (receiver, index, unit))
  | _ => none

/-- A unit reaches an end. -/
def World.receive (link : LinkOptions) (readings : Readings) (receiver : AcousticRole)
    (unit : Fas1Unit) (w : World) : World :=
  { w with
    session := w.session.set
      (deliverUnit (link.of receiver) readings unit (w.session.get receiver)) receiver }

/-- The next unit of a channel is taken off. -/
def World.take (sender : AcousticRole) (w : World) : World :=
  { w with taken := w.taken.set (w.taken.get sender + 1) sender }

/-- One step of the link. -/
def linkStep (link : LinkOptions) (w : World) (event : Readings × LinkEvent) : World :=
  match event.2 with
  | .act role action =>
    { w with
      session := w.session.set (act (link.of role) event.1 action (w.session.get role)) role }
  | .deliver receiver =>
    match (w.sent (complement receiver))[w.taken.get (complement receiver)]? with
    | none => w
    | some unit => (w.receive link event.1 receiver unit).take (complement receiver)
  | .lose receiver =>
    if w.taken.get (complement receiver) < (w.sent (complement receiver)).length then
      w.take (complement receiver)
    else w
  | .redeliver receiver index =>
    match (w.sent (complement receiver))[index]? with
    | none => w
    | some unit => w.receive link event.1 receiver unit

/-- The end whose own action an event is. -/
def LinkEvent.acting : LinkEvent → Option AcousticRole
  | .act role _ => some role
  | _ => none

/-- A unit that arrives was sent. -/
theorem arriving_sent {w : World} {event : LinkEvent} {role : AcousticRole} {index : ℕ}
    {unit : Fas1Unit} (h : arriving w event = some (role, index, unit)) :
    (w.sent (complement role))[index]? = some unit := by
  cases event with
  | act | lose => cases h
  | deliver | redeliver =>
    simp only [arriving, Option.map_eq_some_iff, Prod.mk.injEq] at h
    obtain ⟨_, hsent, rfl, rfl, rfl⟩ := h
    exact hsent

/-- What one step does to the sessions: nothing, an action of one end, or the
arrival of a unit at one end. -/
theorem linkStep_cases (link : LinkOptions) (w : World) (event : Readings × LinkEvent) :
    (linkStep link w event).session = w.session ∨
    (∃ role action, event.2 = .act role action ∧ (linkStep link w event).session =
      w.session.set (act (link.of role) event.1 action (w.session.get role)) role) ∨
    (∃ role index unit, arriving w event.2 = some (role, index, unit) ∧
      (linkStep link w event).session =
        w.session.set (deliverUnit (link.of role) event.1 unit (w.session.get role)) role) := by
  obtain ⟨readings, event⟩ := event
  cases event with
  | act role action => exact .inr (.inl ⟨role, action, rfl, rfl⟩)
  | deliver receiver =>
    cases hsent : (w.sent (complement receiver))[w.taken.get (complement receiver)]? with
    | none => exact .inl (by simp [linkStep, hsent])
    | some unit =>
      exact .inr (.inr ⟨receiver, w.taken.get (complement receiver), unit, by simp [arriving, hsent],
        by simp [linkStep, hsent, World.receive, World.take]⟩)
  | lose receiver =>
    refine .inl ?_
    simp only [linkStep]
    split <;> rfl
  | redeliver receiver index =>
    cases hsent : (w.sent (complement receiver))[index]? with
    | none => exact .inl (by simp [linkStep, hsent])
    | some unit =>
      exact .inr (.inr ⟨receiver, index, unit, by simp [arriving, hsent],
        by simp [linkStep, hsent, World.receive]⟩)

/-- The link after a list of events. -/
def runLink (link : LinkOptions) (events : List (Readings × LinkEvent)) : World :=
  run (linkStep link) initialWorld events

/-- A channel event keeps the order: only the unit taken last comes again. -/
def inOrder (w : World) : LinkEvent → Prop
  | .redeliver receiver index => index + 1 = w.taken.get (complement receiver)
  | _ => True

instance (w : World) : (event : LinkEvent) → Decidable (inOrder w event)
  | .act _ _ => isTrue trivial
  | .deliver _ => isTrue trivial
  | .lose _ => isTrue trivial
  | .redeliver receiver index =>
    inferInstanceAs (Decidable (index + 1 = w.taken.get (complement receiver)))

section Bench

/-- A candidate of one-byte payloads. -/
def benchCandidate : AcousticCandidate :=
  { profileId := quietAudibleId, payloadBytes := 1, repetition := 1, guardMs := 750,
    playbackGain := 1, ackTimeoutMs := 4000, id := [0x63] }

/-- SHA-256 of the canonical bytes of the bench candidate in both directions. -/
def benchDigest : Bytes :=
  [0x76, 0xb4, 0x01, 0xe7, 0xe0, 0x92, 0x77, 0xe3, 0x32, 0xe4, 0xa6, 0xe9, 0x00, 0xe5, 0x3e, 0xd8,
    0x9f, 0x43, 0x59, 0xf6, 0x6e, 0xd6, 0xd9, 0xfc, 0x64, 0x7d, 0x73, 0x82, 0xc8, 0xbb, 0x60, 0x3d]

/-- The settings a bench link commits to. -/
def benchSettings : AcousticSettings :=
  ⟨benchCandidate.toDirectionalSettings, benchCandidate.toDirectionalSettings⟩

/-- The digest of the bench; elsewhere any function without collisions serves. -/
def benchSha256 (input : Bytes) : Bytes :=
  if canonicalizeSettings benchSettings = .ok input then benchDigest else input

/-- Options of a bench end. -/
def benchOptions (role : AcousticRole) : AcousticSessionOptions :=
  { role
    identity := match role with | .a => [0x61] | .b => [0x62]
    expectedPeer := match role with | .a => [0x62] | .b => [0x61]
    profiles := [quietAudibleId]
    ranges := ⟨1, 217⟩
    candidates := [benchCandidate]
    calibration := ⟨1, 1, 1000⟩
    asynchronous := fun _ => true
    sha256 := benchSha256
    localeCompare := fun _ _ => 0 }

/-- The constructor accepts the options of the runs below. -/
theorem benchOptions_admitted (role : AcousticRole) : ∃ s, construct (benchOptions role) = .ok s := by
  cases role <;> exact ⟨_, rfl⟩

/-- Two ends on a bench. -/
def benchLink : LinkOptions :=
  { ends := ⟨⟨benchOptions .a, benchOptions_admitted .a⟩, ⟨benchOptions .b, benchOptions_admitted .b⟩⟩
    role := by
      intro role
      cases role <;> rfl }

/-- Readings of a bench end at the time zero: every probe arrives. -/
def benchReadings (role : AcousticRole) : Readings :=
  { now := 0
    nonce := match role with
      | .a => List.replicate 15 1 ++ [2]
      | .b => List.replicate 15 3 ++ [4]
    observation := ⟨true, true, false, false, false, false, some 5, none, none, 1⟩ }

/-- An action of a bench end. -/
def benchAct (role : AcousticRole) (action : Action) : Readings × LinkEvent :=
  (benchReadings role, .act role action)

/-- A bench end receives the next unit. -/
def benchDeliver (role : AcousticRole) : Readings × LinkEvent := (benchReadings role, .deliver role)

/-- The next unit for a bench end is lost. -/
def benchLose (role : AcousticRole) : Readings × LinkEvent := (benchReadings role, .lose role)

/-- Handshake, calibration, commit and bootstrap without a loss. -/
def benchEstablish : List (Readings × LinkEvent) :=
  [benchAct .a .start, benchDeliver .b, benchDeliver .a, benchDeliver .b, benchDeliver .a,
    benchDeliver .b, benchDeliver .a, benchDeliver .a, benchDeliver .b,
    benchAct .b (.work false), benchAct .b (.work false), benchDeliver .a,
    benchAct .a (.work false), benchAct .a (.work false), benchDeliver .b, benchDeliver .b,
    benchDeliver .a]

end Bench

end Fipwave.AcousticLink
