import Fipwave.AcousticLink
import Fipwave.LinkFrames

/-!
# Sessions that were left

B remembers the last eight sessions of its epoch it left and takes up none of
them. What it remembers is compared with the sessions it really left along a
run: the session it is in is none of the last eight different ones, and a
HELLO for that session only counts as a sign of life.
-/

namespace Fipwave.SessionRetirement

open ByteWords ThrowingMethod TransitionRun AcousticProtocol AcousticHandshake AcousticState
  AcousticMethods AcousticNegotiation AcousticSession AcousticLink LinkFrames

variable {options : AcousticSessionOptions} {s t : AcousticSession} {epoch : ℕ}

/-- The session a step leaves. -/
def leaving (s t : AcousticSession) : Option ℕ :=
  if t.link.generation = s.link.generation ∧ t.link.sessionId = s.link.sessionId then none
  else s.link.sessionId

/-- The sessions left along a run, the latest last. -/
def departures (options : AcousticSessionOptions) :
    AcousticSession → List (Readings × Event) → List ℕ
  | _, [] => []
  | s, event :: events =>
    (leaving s (step options s event)).toList ++ departures options (step options s event) events

/-- The last eight of a list. -/
def lastEight (ids : List ℕ) : List ℕ := ids.drop (ids.length - 8)

/-- The last eight different sessions of those left. -/
def recentlyLeft (history : List ℕ) : List ℕ := lastEight history.dedup

/-- A reset, if the event is one, keeps the epoch. -/
def KeepsEpoch (epoch : ℕ) (event : Readings × Event) : Prop :=
  ∀ other, event.2 = .act (.reset other) → other = epoch

/-- Forgetting early or late leaves the same eight. -/
theorem lastEight_append (ids more : List ℕ) :
    lastEight (lastEight ids ++ more) = lastEight (ids ++ more) := by
  have hlength : (lastEight ids).length = min ids.length 8 := by
    unfold lastEight
    rw [List.length_drop]
    omega
  rcases Nat.le_total ids.length 8 with hshort | hlong
  · have hall : lastEight ids = ids := by
      have hzero : ids.length - 8 = 0 := by omega
      unfold lastEight
      rw [hzero, List.drop_zero]
    rw [hall]
  · have hsplit : ids ++ more = ids.take (ids.length - 8) ++ (lastEight ids ++ more) := by
      unfold lastEight
      rw [← List.append_assoc, List.take_append_drop]
    have hfront : (ids.take (ids.length - 8)).length = ids.length - 8 := by
      rw [List.length_take]
      omega
    have hcount : (ids ++ more).length - 8 =
        (ids.take (ids.length - 8)).length + ((lastEight ids ++ more).length - 8) := by
      rw [hfront, List.length_append, List.length_append, hlength]
      omega
    conv_rhs => unfold lastEight
    rw [hcount, hsplit, List.drop_append]
    unfold lastEight
    simp

/-- The last eight different ones are among the last eight, if these are different. -/
theorem recentlyLeft_subset {known history : List ℕ}
    (hnodup : (lastEight (known ++ history)).Nodup) {id : ℕ} (h : id ∈ recentlyLeft history) :
    id ∈ lastEight (known ++ history) := by
  rcases Nat.lt_or_ge history.length 8 with hshort | hlong
  · have hmem : id ∈ history := List.mem_dedup.mp (List.mem_of_mem_drop h)
    have hsuffix : (known ++ history).length - 8 ≤ known.length := by
      rw [List.length_append]
      omega
    unfold lastEight
    rw [List.drop_append_of_le_length hsuffix]
    exact List.mem_append_right _ hmem
  · have hwhole : lastEight (known ++ history) = lastEight history := by
      have hfront : (known ++ history).length - 8 = known.length + (history.length - 8) := by
        rw [List.length_append]
        omega
      unfold lastEight
      rw [hfront, List.drop_append]
      simp
    rw [hwhole] at hnodup ⊢
    have hlength : (lastEight history).length = 8 := by
      unfold lastEight
      rw [List.length_drop]
      omega
    have hsuffix : lastEight history <:+ history.dedup := by
      have hsplit : history = history.take (history.length - 8) ++ lastEight history :=
        (List.take_append_drop _ _).symm
      conv_rhs => rw [hsplit]
      rw [List.dedup_append, hnodup.dedup]
      exact List.suffix_union_right _ _
    obtain ⟨front, hfront⟩ := hsuffix
    have hrecent : recentlyLeft history = lastEight history := by
      have hcount : (front ++ lastEight history).length - 8 = front.length := by
        rw [List.length_append, hlength]
        omega
      rw [recentlyLeft, ← hfront, lastEight, hcount]
      exact List.drop_left
    rwa [hrecent] at h

/-- What B remembers fits the session it is in. -/
structure Tidy (s : AcousticSession) : Prop where
  /-- The sessions remembered are different. -/
  nodup : s.link.retiredSessionIds.Nodup
  /-- There are at most eight. -/
  bounded : s.link.retiredSessionIds.length ≤ 8
  /-- The session it is in has an identifier in range and is none of them. -/
  current : ∀ id, s.link.sessionId = some id →
    1 ≤ id ∧ id ≤ uint64Max ∧ id ∉ s.link.retiredSessionIds
  /-- A session at rest has no identifier. -/
  rest : s.state = .listening → s.link.sessionId = none

/-- A session that is kept stays tidy. -/
theorem Tidy.stays (h : Tidy s) (hstay : Stays .b s t) : Tidy t := by
  refine ⟨?_, ?_, ?_, fun hlistening => ?_⟩
  · rw [hstay.retired]
    exact h.nodup
  · rw [hstay.retired]
    exact h.bounded
  · rw [hstay.retired, hstay.sessionId]
    exact h.current
  · rw [hstay.sessionId]
    rcases hstay.state with hsame | haway
    · exact h.rest (hsame.symm.trans hlistening)
    · exact absurd hlistening haway

/-- Leaving a session appends it to those remembered. -/
theorem Tidy.retired_leaves (h : Tidy s) (hleave : Leaves .b epoch s t) :
    epoch ≠ s.link.epoch ∧ t.link.retiredSessionIds = [] ∨ epoch = s.link.epoch ∧
      t.link.retiredSessionIds =
        lastEight (s.link.retiredSessionIds ++ s.link.sessionId.toList) := by
  have hretired := hleave.retired
  unfold resetLink at hretired
  dsimp only at hretired
  split at hretired
  · next hepoch => exact .inl ⟨hepoch, hretired⟩
  · next hepoch =>
    refine .inr ⟨not_not.mp hepoch, ?_⟩
    rw [hretired]
    cases hsession : s.link.sessionId with
    | none =>
      have hzero : s.link.retiredSessionIds.length - 8 = 0 := by
        have hbounded := h.bounded
        omega
      rw [Option.toList_none, List.append_nil, lastEight, hzero, List.drop_zero]
    | some id =>
      have hfresh := (h.current id hsession).2.2
      dsimp only
      rw [retire, if_neg hfresh]
      rfl

/-- A session that is left is retired, so the rest is tidy. -/
theorem Tidy.leaves (h : Tidy s) (hleave : Leaves .b epoch s t) : Tidy t := by
  have hnodup : (s.link.retiredSessionIds ++ s.link.sessionId.toList).Nodup := by
    cases hsession : s.link.sessionId with
    | none => simpa using h.nodup
    | some id =>
      have hfresh := (h.current id hsession).2.2
      rw [Option.toList_some, List.nodup_append]
      refine ⟨h.nodup, List.nodup_singleton id, ?_⟩
      intro other hother value hvalue
      rw [List.mem_singleton.mp hvalue]
      rintro rfl
      exact hfresh hother
  have hcurrent : ∀ id, t.link.sessionId = some id →
      1 ≤ id ∧ id ≤ uint64Max ∧ id ∉ t.link.retiredSessionIds := by
    intro id hid
    rw [hleave.sessionId] at hid
    cases hid
  rcases h.retired_leaves hleave with ⟨-, hempty⟩ | ⟨-, hretired⟩
  · refine ⟨?_, ?_, hcurrent, fun _ => hleave.sessionId⟩
    · rw [hempty]
      exact List.nodup_nil
    · rw [hempty]
      exact Nat.zero_le 8
  · refine ⟨?_, ?_, hcurrent, fun _ => hleave.sessionId⟩
    · rw [hretired]
      exact hnodup.sublist (List.drop_sublist _ _)
    · rw [hretired, lastEight, List.length_drop]
      omega

/-- A session that is taken up was not among the retired. -/
theorem Tidy.takes (h : Tidy s) (htake : Takes .b s t) : Tidy t := by
  refine ⟨?_, ?_, fun id hid => ?_, fun hlistening => absurd hlistening htake.state⟩
  · rw [htake.retired]
    exact h.nodup
  · rw [htake.retired]
    exact h.bounded
  · obtain ⟨taken, htaken, hlow, hhigh, hfresh⟩ := htake.sessionId
    rw [htaken] at hid
    cases hid
    rw [htake.retired]
    exact ⟨hlow, hhigh, hfresh rfl⟩

/-- Every change of session keeps the memory tidy. -/
theorem Tidy.change (h : Tidy s) (hchange : Change .b epoch s t) : Tidy t := by
  obtain ⟨u, v, hleave, htake, hstay⟩ := hchange
  have hu : Tidy u := by
    rcases hleave with rfl | hleave
    · exact h
    · exact h.leaves hleave
  have hv : Tidy v := by
    rcases htake with rfl | htake
    · exact hu
    · exact hu.takes htake
  exact hv.stays hstay

/-- One event keeps the memory tidy. -/
theorem tidy_step (hrole : options.role = .b) (s : AcousticSession) (event : Readings × Event)
    (h : Tidy s) : Tidy (step options s event) := by
  obtain ⟨epoch, -, hchange⟩ := step_change options s event
  rw [hrole] at hchange
  exact h.change hchange

/-- The memory is tidy after every run. -/
theorem tidy_run (hrole : options.role = .b) (events : List (Readings × Event)) :
    Tidy (runSession options events) := by
  have hstart : Tidy (initialSession options.role) := by
    refine ⟨List.nodup_nil, Nat.zero_le 8, fun id hid => ?_, fun _ => rfl⟩
    cases hid
  exact invariant (step options) (tidy_step hrole) hstart events

/-- A change in one epoch appends the session it leaves to those remembered. It is in parts: the old
session is left, a new one is taken, the rest stays. -/
theorem Tidy.remembers (h : Tidy s) (hchange : Change .b s.link.epoch s t) :
    t.link.epoch = s.link.epoch ∧ t.link.retiredSessionIds =
      lastEight (s.link.retiredSessionIds ++ (leaving s t).toList) := by
  obtain ⟨u, v, hleave, htake, hstay⟩ := hchange
  have hsame : lastEight s.link.retiredSessionIds = s.link.retiredSessionIds := by
    have hzero : s.link.retiredSessionIds.length - 8 = 0 := by
      have hbounded := h.bounded
      omega
    rw [lastEight, hzero, List.drop_zero]
  rcases hleave with rfl | hleave
  · have hkept : v.link.epoch = u.link.epoch ∧ v.link.generation = u.link.generation ∧
        v.link.retiredSessionIds = u.link.retiredSessionIds ∧
        (v.link.sessionId = u.link.sessionId ∨ u.link.sessionId = none) := by
      rcases htake with rfl | htake
      · exact ⟨rfl, rfl, rfl, .inl rfl⟩
      · exact ⟨htake.epoch, htake.generation, htake.retired, .inr (h.rest htake.rest)⟩
    obtain ⟨hepoch, hgeneration, hretired, hsession⟩ := hkept
    have hnone : leaving u t = none := by
      unfold leaving
      rw [hstay.generation, hgeneration, hstay.sessionId]
      rcases hsession with hsession | hsession
      · rw [hsession, if_pos ⟨rfl, rfl⟩]
      · rw [hsession]
        split <;> rfl
    rw [hnone, hstay.epoch, hepoch, hstay.retired, hretired, Option.toList_none, List.append_nil,
      hsame]
    exact ⟨rfl, rfl⟩
  · have hkept : v.link.epoch = u.link.epoch ∧ v.link.generation = u.link.generation ∧
        v.link.retiredSessionIds = u.link.retiredSessionIds := by
      rcases htake with rfl | htake
      · exact ⟨rfl, rfl, rfl⟩
      · exact ⟨htake.epoch, htake.generation, htake.retired⟩
    obtain ⟨hepoch, hgeneration, hretired⟩ := hkept
    have hleft : leaving s t = s.link.sessionId := by
      unfold leaving
      rw [hstay.generation, hgeneration, hleave.generation]
      exact if_neg (fun hboth => Nat.succ_ne_self _ hboth.1)
    have happended : u.link.retiredSessionIds =
        lastEight (s.link.retiredSessionIds ++ s.link.sessionId.toList) := by
      rcases h.retired_leaves hleave with ⟨hother, -⟩ | ⟨-, happended⟩
      · exact absurd rfl hother
      · exact happended
    rw [hleft, hstay.epoch, hepoch, hleave.epoch, hstay.retired, hretired, happended]
    exact ⟨rfl, rfl⟩

/-- Within an epoch one event appends the session it leaves, if any, to the retired. -/
theorem remembers_step (hrole : options.role = .b) (h : Tidy s) {event : Readings × Event}
    (hepoch : KeepsEpoch s.link.epoch event) :
    (step options s event).link.epoch = s.link.epoch ∧
      (step options s event).link.retiredSessionIds =
        lastEight (s.link.retiredSessionIds ++ (leaving s (step options s event)).toList) := by
  obtain ⟨epoch, hwhich, hchange⟩ := step_change options s event
  have hsame : epoch = s.link.epoch := by
    rcases hwhich with hsame | hreset
    · exact hsame
    · exact hepoch epoch hreset
  rw [hrole, hsame] at hchange
  exact h.remembers hchange

/-- B remembers the last eight sessions it left in an epoch. -/
theorem remembers_run (hrole : options.role = .b) (events : List (Readings × Event))
    (h : Tidy s) (hepoch : ∀ event ∈ events, KeepsEpoch s.link.epoch event) :
    (run (step options) s events).link.retiredSessionIds =
      lastEight (s.link.retiredSessionIds ++ departures options s events) := by
  induction events generalizing s with
  | nil =>
    have hzero : s.link.retiredSessionIds.length - 8 = 0 := by
      have hbounded := h.bounded
      omega
    rw [run_nil, departures, List.append_nil, lastEight, hzero, List.drop_zero]
  | cons event events ih =>
    obtain ⟨hsame, hretired⟩ := remembers_step hrole h (hepoch event List.mem_cons_self)
    have hrest : ∀ other ∈ events, KeepsEpoch (step options s event).link.epoch other := by
      intro other hother
      rw [hsame]
      exact hepoch other (List.mem_cons_of_mem event hother)
    rw [run_cons, ih (tidy_step hrole s event h) hrest, hretired, lastEight_append, departures,
      List.append_assoc]

/-- A handshake payload carries the session. -/
def Carries (body : Bytes) (id : ℕ) : Prop :=
  ∃ hello, decodeHandshake body = .ok hello ∧ hello.sessionId = some id

/-- Signs of life only arm timers. -/
theorem noteLiveness_timers (unit : Fas1Unit) (s : AcousticSession) :
    ∃ timers, noteLiveness options unit s = { s with timers := timers } := by
  unfold noteLiveness
  split
  · unfold armHeartbeatTimers
    split
    · exact ⟨s.timers, rfl⟩
    · unfold scheduleHeartbeat
      dsimp only
      split
      · exact ⟨_, rfl⟩
      · exact ⟨_, rfl⟩
  · exact ⟨s.timers, rfl⟩

/-- A HELLO for the current session is ignored. -/
theorem onHello_current (h : Tidy s) (readings : Readings) {headerSessionId id : ℕ} {body : Bytes}
    (hcurrent : s.link.sessionId = some id) (hcarries : headerSessionId = id ∨ Carries body id) :
    onHello options readings headerSessionId body s = .ok s := by
  unfold onHello
  split
  · rfl
  · next hrole =>
    simp only [not_or, not_not] at hrole
    rcases hcarries with hheader | ⟨hello, hdecoded, hid⟩
    · have hpositive := (h.current id hcurrent).1
      omega
    · have hbusy : s.state ≠ .listening := by
        intro hlistening
        rw [h.rest hlistening] at hcurrent
        cases hcurrent
      simp only [hdecoded, attempt, ok_bind, hid, if_neg hbusy, if_pos hcurrent]
      split <;> rfl

/-- A HELLO for the current session is at most a sign of life. -/
theorem receive_current (h : Tidy s) (readings : Readings) {raw : Bytes} {unit : Fas1Unit} {id : ℕ}
    (hraw : decodeFas1 raw = .ok unit) (htype : unit.type = .hello)
    (hcurrent : s.link.sessionId = some id)
    (hcarries : unit.sessionId = id ∨ Carries unit.body id) :
    ∃ timers, receive options readings raw s = { s with timers := timers } := by
  have hignored : handleUnit options readings unit s = .ok s := by
    unfold handleUnit
    rw [htype]
    exact onHello_current h readings hcurrent hcarries
  unfold receive
  rw [hraw]
  dsimp only
  unfold deliverUnit
  split
  · unfold receiveUnit
    split
    · exact ⟨s.timers, rfl⟩
    · rw [hignored]
      exact noteLiveness_timers unit s
  · exact ⟨s.timers, rfl⟩

/-- In a run of B that keeps the epoch, from whatever state, B is never in one of the last eight
different sessions it left, and a HELLO for the session it is in changes nothing but timers. -/
theorem no_session_revived (options : AcousticSessionOptions) (hrole : options.role = .b)
    (before events : List (Readings × Event))
    (hepoch : ∀ event ∈ events, KeepsEpoch (runSession options before).link.epoch event) :
    (∀ id, (run (step options) (runSession options before) events).link.sessionId = some id →
      id ∉ recentlyLeft (departures options (runSession options before) events)) ∧
    ∀ readings raw unit id, decodeFas1 raw = .ok unit → unit.type = .hello →
      (run (step options) (runSession options before) events).link.sessionId = some id →
      (unit.sessionId = id ∨ Carries unit.body id) →
      ∃ timers, step options (run (step options) (runSession options before) events)
          (readings, .receive raw) =
        { run (step options) (runSession options before) events with timers := timers } := by
  have hstart : Tidy (runSession options before) := tidy_run hrole before
  have htidy : Tidy (run (step options) (runSession options before) events) :=
    invariant (step options) (tidy_step hrole) hstart events
  have hretired := remembers_run hrole events hstart hepoch
  refine ⟨fun id hid hrecent => ?_, fun readings raw unit id hraw htype hcurrent hcarries => ?_⟩
  · have hnodup := htidy.nodup
    rw [hretired] at hnodup
    have hmem := recentlyLeft_subset hnodup hrecent
    rw [← hretired] at hmem
    exact (htidy.current id hid).2.2 hmem
  · exact receive_current htidy readings hraw htype hcurrent hcarries

/-- The bytes of the HELLO a bench A begins with. -/
def benchHello : Bytes :=
  let nonce := (benchReadings .a).nonce
  ((do
    let body ← encodeHandshake (helloOf (benchOptions .a) nonce 0 (toSessionId nonce))
    encodeFas1 (controlUnit (benchOptions .a) .hello 0 body 1)) :
    Except String Bytes).toOption.getD []

/-- The session it asks for. -/
def benchSessionId : ℕ := toSessionId (benchReadings .a).nonce

/-- A bench B that is greeted, is reset and is greeted again with the same bytes. -/
def benchReplay : List (Readings × Event) :=
  [(benchReadings .b, .receive benchHello), (benchReadings .b, .act (.reset 0)),
    (benchReadings .b, .receive benchHello)]

/-- The session left is not entered again. -/
theorem no_session_revived_bench :
    departures (benchOptions .b) (runSession (benchOptions .b) []) benchReplay = [benchSessionId] ∧
      ∀ id, (run (step (benchOptions .b)) (runSession (benchOptions .b) [])
        benchReplay).link.sessionId = some id → id ∉ recentlyLeft [benchSessionId] := by
  have hepoch : ∀ event ∈ benchReplay,
      KeepsEpoch (runSession (benchOptions .b) []).link.epoch event := by
    intro event hmem other hreset
    rcases List.mem_cons.mp hmem with rfl | hmem
    · cases hreset
    · rcases List.mem_cons.mp hmem with rfl | hmem
      · cases hreset
        rfl
      · rw [List.mem_singleton.mp hmem] at hreset
        cases hreset
  have hdepartures :
      departures (benchOptions .b) (runSession (benchOptions .b) []) benchReplay =
        [benchSessionId] := by
    decide +kernel
  refine ⟨hdepartures, ?_⟩
  rw [← hdepartures]
  exact (no_session_revived (benchOptions .b) rfl [] benchReplay hepoch).1

end Fipwave.SessionRetirement
