import Fipwave.AcousticLink
import Fipwave.DeliveryRefinement

/-!
# Who holds the turn token

Ownership is one field at each end. An end that gives the token away says so
with a TURN_END, and B says so with every HEARTBEAT. The proof follows each
end separately: since it last took the token, it has yielded only if it no
longer holds it. Together with the condition that a yield is acted on before
its sender holds the token again, both ends never hold it at once.
-/

namespace Fipwave.TurnToken

open Relation TransitionRun AcousticProtocol PacketFragments AcousticHandshake AcousticState
  AcousticMethods AcousticDelivery AcousticSession AcousticLink DeliveryMachine DeliveryRefinement

/-- The unit at a position closes a burst of DATA. -/
def closesBurst (sent : List Fas1Unit) : ℕ → Bool
  | 0 => false
  | index + 1 => sent[index]?.any (fun unit => unit.type = .data)

/-- The unit at a position says that its sender does not hold the token. -/
def yields (role : AcousticRole) (sent : List Fas1Unit) (index : ℕ) : Bool :=
  sent[index]?.any (fun unit => (unit.type = .turnEnd && !closesBurst sent index) ||
    (unit.type = .heartbeat && role = .b))

/-- What holds of one end between any two moves. -/
structure TokenState (role : AcousticRole) (c : Core) : Prop where
  /-- Only A answers a COMMIT. -/
  fit : c.acknowledging = true → role = .a
  /-- Pending packets consist of DATA. -/
  data : ∀ pending ∈ pendingOf c.delivery, ∀ unit ∈ pending.fragments, unit.type = .data
  /-- An end waits for an ACK only while it holds the token. -/
  awaiting : c.delivery.awaitingAck = true → c.delivery.turnOwner = some role
  /-- B waits for an ACK only in a ready or failed session. -/
  awaitingState : role = .b → c.delivery.awaitingAck = true →
    c.state = .ready ∨ c.state = .error
  /-- B answers a recovery only while A holds the token. -/
  reply : role = .b → ∀ timer sessionId, c.deliveryTimer = some timer →
    timer.task = .recoveryReply sessionId → c.delivery.turnOwner ≠ some .b

variable {x : Context} {c d : Core}

/-- Fragments of a cut packet are DATA. -/
theorem fragments_data {input : FragmentPacketInput} {fragments : List Fas1Unit}
    (h : fragmentPacket input = .ok fragments) : ∀ unit ∈ fragments, unit.type = .data := by
  intro unit hunit
  rw [(fragmentPacket_ok h).2, List.mem_map] at hunit
  obtain ⟨index, -, rfl⟩ := hunit
  rfl

/-- The pending packets are the active one and those of the three queues. -/
theorem mem_pendingOf {delivery : Delivery} {pending : PendingPacket} :
    pending ∈ pendingOf delivery ↔ delivery.active = some pending ∨
      pending ∈ delivery.queues.control ∨ pending ∈ delivery.queues.heartbeat ∨
      pending ∈ delivery.queues.ordinary := by
  simp only [pendingOf, List.mem_append, Option.mem_toList, or_assoc]

/-- The packet taken and those left were queued. -/
theorem mem_dequeue {queues : Queues} {pending : PendingPacket}
    (h : (dequeue queues).1 = some pending ∨ pending ∈ (dequeue queues).2.control ∨
      pending ∈ (dequeue queues).2.heartbeat ∨ pending ∈ (dequeue queues).2.ordinary) :
    pending ∈ queues.control ∨ pending ∈ queues.heartbeat ∨ pending ∈ queues.ordinary := by
  obtain ⟨control, heartbeat, ordinary⟩ := queues
  cases control with
  | cons item control =>
    simp only [dequeue, Option.some.injEq, List.mem_cons] at h ⊢
    tauto
  | nil =>
    cases heartbeat with
    | cons item heartbeat =>
      simp only [dequeue, Option.some.injEq, List.mem_cons] at h ⊢
      tauto
    | nil =>
      cases ordinary with
      | cons item ordinary =>
        simp only [dequeue, Option.some.injEq, List.mem_cons] at h ⊢
        tauto
      | nil => simp [dequeue] at h

/-- A packet of the queues after a push is the one pushed or was there. -/
theorem mem_pushPacket {queues : Queues} {added pending : PendingPacket}
    (h : pending ∈ (pushPacket added queues).control ∨
      pending ∈ (pushPacket added queues).heartbeat ∨
      pending ∈ (pushPacket added queues).ordinary) :
    pending = added ∨ pending ∈ queues.control ∨ pending ∈ queues.heartbeat ∨
      pending ∈ queues.ordinary := by
  unfold pushPacket at h
  cases hclass : added.trafficClass <;>
    simp only [hclass, List.mem_append, List.mem_singleton] at h <;> tauto

/-- Moves create no pending packet that is not DATA. -/
theorem data_move (h : Move x c d)
    (hc : ∀ pending ∈ pendingOf c.delivery, ∀ unit ∈ pending.fragments, unit.type = .data) :
    ∀ pending ∈ pendingOf d.delivery, ∀ unit ∈ pending.fragments, unit.type = .data := by
  simp only [mem_pendingOf] at hc ⊢
  cases h with
  | expireQueues =>
    intro pending hp
    refine hc pending ?_
    simp only [retained, List.mem_filter] at hp
    tauto
  | activate _ hactive =>
    intro pending hp
    exact hc pending (.inr (mem_dequeue hp))
  | burst _ pending turnEnd count hstate howner hactive =>
    rintro other (hp | hp)
    · obtain rfl := Option.some.inj hp
      exact hc pending (.inl hactive)
    · exact hc other (.inr hp)
  | partialAck _ unit pending timer hunit htype hstate hsession hactive =>
    rintro other (hp | hp)
    · obtain rfl := Option.some.inj hp
      exact hc pending (.inl hactive)
    · exact hc other (.inr hp)
  | accept _ input fragments trafficClass hstate hsession hid hwrap hfragments =>
    rintro other (hp | hp)
    · exact hc other (.inl hp)
    · rcases mem_pushPacket hp with rfl | hp
      · exact fragments_data hfragments
      · exact hc other (.inr hp)
  | reset => simp [resetCore]
  | dropActive | skipTurn | fullAck =>
    rintro other (hp | hp)
    · simp at hp
    · exact hc other (.inr hp)
  | _ => exact hc

/-- An end that waits for an ACK holds the token, whatever moves. -/
theorem awaiting_move (h : Move x c d) (hc : TokenState x.role c) :
    d.delivery.awaitingAck = true → d.delivery.turnOwner = some x.role := by
  cases h with
  | burst _ pending turnEnd count hstate howner => exact fun _ => howner
  | reset | dropActive | degrade | fullAck | partialAck | ackTimeout =>
    intro hawaiting
    simp [resetCore] at hawaiting
  | closeTurn _ beats turnEnd hbeats htype hwf hfalse =>
    intro hawaiting
    simp [hfalse] at hawaiting
  | skipTurn _ pending timer hactive hfalse =>
    intro hawaiting
    simp [hfalse] at hawaiting
  | replyAck _ unit ackUnit ack count hunit htype hstate hsession howner =>
    intro hawaiting
    exact absurd (howner.symm.trans (hc.awaiting hawaiting)) (by simp)
  | takeToken => exact fun _ => rfl
  | commitToken hstate =>
    intro hawaiting
    cases hrole : x.role with
    | a => rfl
    | b =>
      rcases hstate with hack | hcommitting
      · simp [hc.fit hack] at hrole
      · have hs := hc.awaitingState hrole hawaiting
        simp [hcommitting] at hs
  | resync unit units timer hunit htype hsession hstate =>
    intro hawaiting
    cases hrole : x.role with
    | a => rfl
    | b =>
      have hs := hc.awaitingState hrole hawaiting
      rcases hstate with h | h | h <;> simp [h] at hs
  | _ => exact hc.awaiting

/-- B waits for an ACK only in a ready or failed session, whatever moves. -/
theorem awaitingState_move (h : Move x c d) (hc : TokenState x.role c) :
    x.role = .b → d.delivery.awaitingAck = true → d.state = .ready ∨ d.state = .error := by
  intro hrole
  have hb := hc.awaitingState hrole
  cases h with
  | negotiate _ units state hunits hwf hstate =>
    intro hawaiting
    rcases hstate with rfl | rfl | ⟨hearly, -⟩
    · exact hb hawaiting
    · exact .inr rfl
    · rcases hb hawaiting with h | h <;> simp [h, Early] at hearly
  | openSession _ sessionId state hrest =>
    intro hawaiting
    rcases hb hawaiting with h | h <;> simp [h, hrole, restState] at hrest
  | burst _ pending turnEnd count hstate => exact fun _ => .inl hstate
  | reset | dropActive | degrade | fullAck | partialAck | ackTimeout =>
    intro hawaiting
    simp [resetCore] at hawaiting
  | commitToken hstate =>
    intro hawaiting
    rcases hstate with hack | hcommitting
    · simp [hc.fit hack] at hrole
    · rcases hb hawaiting with h | h <;> simp [h] at hcommitting
  | recover _ hstate =>
    intro hawaiting
    rcases hb hawaiting with h | h <;> simp [h] at hstate
  | resync => exact fun _ => .inl rfl
  | unansweredResync => exact fun _ => .inl rfl
  | _ => exact hb

/-- B answers a recovery only while A holds the token, whatever moves. -/
theorem reply_move (h : Move x c d) (hc : TokenState x.role c) :
    x.role = .b → ∀ timer sessionId, d.deliveryTimer = some timer →
      timer.task = .recoveryReply sessionId → d.delivery.turnOwner ≠ some .b := by
  intro hrole
  have hb := hc.reply hrole
  cases h with
  | commitToken | resync => simp
  | reset => simp [resetCore]
  | degrade _ timer htask =>
    intro other sessionId hsome hother
    obtain rfl := Option.some.inj hsome
    simp [htask] at hother
  | armTimeout _ timer htask =>
    intro other sessionId hsome hother
    obtain rfl := Option.some.inj hsome
    rcases htask with ⟨_, _, h⟩ | h <;> simp [h] at hother
  | skipTurn _ pending timer hactive hfalse hmissing htask =>
    intro other sessionId hsome hother
    obtain rfl := Option.some.inj hsome
    simp [htask] at hother
  | takeToken unit timer hunit htype hstate hsession howner hack htask =>
    intro other sessionId hsome hother
    obtain rfl := Option.some.inj hsome
    simp [htask] at hother
  | partialAck _ unit pending timer hunit htype hstate hsession hactive hawaiting hpacket hlegal
      hmore htask =>
    intro other sessionId hsome hother
    obtain rfl := Option.some.inj hsome
    simp [htask] at hother
  | closeTurn | replyAck => simp [hrole, complement]
  | clearTimer | fullAck | confirm | unansweredResync | recoveryReply => simp
  | _ => exact hb

/-- Moves keep what holds of one end. -/
theorem tokenState_move (h : Move x c d) (hc : TokenState x.role c) : TokenState x.role d :=
  ⟨fit_move h hc.fit, data_move h hc.data, awaiting_move h hc, awaitingState_move h hc,
    reply_move h hc⟩

/-- Later units do not change what an earlier one says. -/
theorem yields_append_left (role : AcousticRole) {sent : List Fas1Unit} (units : List Fas1Unit)
    {index : ℕ} (h : index < sent.length) :
    yields role (sent ++ units) index = yields role sent index := by
  have hcloses : closesBurst (sent ++ units) index = closesBurst sent index := by
    cases index with
    | zero => rfl
    | succ index => simp only [closesBurst, List.getElem?_append_left (Nat.lt_of_succ_lt h)]
  simp only [yields, List.getElem?_append_left h, hcloses]

/-- A unit yields only as a TURN_END or as a heartbeat of B. -/
theorem yields_type {role : AcousticRole} {sent : List Fas1Unit} {index : ℕ}
    (h : yields role sent index = true) : ∃ unit, sent[index]? = some unit ∧
      (unit.type = .turnEnd ∧ closesBurst sent index = false ∨
        unit.type = .heartbeat ∧ role = .b) := by
  simp only [yields, Option.any_eq_true, Bool.or_eq_true, Bool.and_eq_true, decide_eq_true_eq,
    Bool.not_eq_true'] at h
  exact h

/-- Units of other kinds yield nothing. -/
theorem yields_append_right {role : AcousticRole} {sent units : List Fas1Unit}
    (hunits : ∀ unit ∈ units, unit.type ≠ .turnEnd ∧ ¬(unit.type = .heartbeat ∧ role = .b))
    {index : ℕ} (h : sent.length ≤ index) : yields role (sent ++ units) index = false := by
  by_contra hne
  rw [Bool.not_eq_false] at hne
  obtain ⟨unit, hget, htype⟩ := yields_type hne
  rw [List.getElem?_append_right h] at hget
  have hu := hunits unit (List.mem_of_getElem? hget)
  rcases htype with ⟨ht, -⟩ | ht
  · exact hu.1 ht
  · exact hu.2 ht

/-- A burst yields nothing: its TURN_END follows DATA. -/
theorem yields_burst {role : AcousticRole} {sent missing : List Fas1Unit} {turnEnd : Fas1Unit}
    (hdata : ∀ unit ∈ missing, unit.type = .data) (hmissing : missing ≠ []) (count : ℕ)
    {index : ℕ} (h : sent.length ≤ index) (htype : turnEnd.type = .turnEnd) :
    yields role (sent ++ (missing ++ [turnEnd]).take count) index = false := by
  by_contra hne
  rw [Bool.not_eq_false] at hne
  obtain ⟨unit, hget, hyields⟩ := yields_type hne
  rw [List.getElem?_append_right h, List.getElem?_take] at hget
  split at hget
  · next hcount =>
    by_cases hlast : index - sent.length < missing.length
    · rw [List.getElem?_append_left hlast] at hget
      have hd := hdata unit (List.mem_of_getElem? hget)
      simp [hd] at hyields
    · have hpos : 0 < missing.length := List.length_pos_iff.mpr hmissing
      have hlen : index - sent.length = missing.length := by
        by_contra hgt
        rw [List.getElem?_eq_none (by simp; omega)] at hget
        cases hget
      rw [hlen, List.getElem?_append_right (le_refl _)] at hget
      simp only [Nat.sub_self, List.getElem?_cons_zero, Option.some.injEq] at hget
      subst hget
      obtain ⟨last, hidx⟩ : ∃ last, index = last + 1 := ⟨index - 1, by omega⟩
      have hprev : (sent ++ (missing ++ [turnEnd]).take count)[last]? = missing[missing.length - 1]? := by
        rw [List.getElem?_append_right (by omega), List.getElem?_take, if_pos (by omega),
          List.getElem?_append_left (by omega)]
        congr 1
        omega
      have hcloses : closesBurst (sent ++ (missing ++ [turnEnd]).take count) index = true := by
        rw [hidx]
        simp only [closesBurst, hprev, List.getElem?_eq_getElem (show missing.length - 1 <
          missing.length by omega), Option.any_some, decide_eq_true_eq]
        exact hdata _ (List.getElem_mem _)
      simp [hcloses, htype] at hyields
  · cases hget

/-- The end holds the token; A is said to hold it once it is ready. -/
def Holds (role : AcousticRole) (c : Core) : Prop :=
  c.delivery.turnOwner = some role ∧ (role = .a → c.state = .ready)

/-- The received unit makes the end take the token. -/
def Takes (role : AcousticRole) (c : Core) (unit : Fas1Unit) : Prop :=
  c.sessionId = some unit.sessionId ∧
    ((unit.type = .turnEnd ∧ c.state = .ready ∧ c.delivery.turnOwner = some (complement role) ∧
        c.delivery.lastAck = none) ∨
      (unit.type = .heartbeat ∧ role = .a ∧
        (c.state = .awaitingHeartbeat ∨ c.state = .degraded ∨ c.state = .recovering)))

/-- What the moves of one step have done to the token so far. -/
structure TokenStep (x : Context) (c : Core) : Prop where
  /-- Units are only added. -/
  sent : ∃ units, c.sent = x.start.sent ++ units
  /-- An end that held the token throughout has not yielded. -/
  silent : x.start.delivery.turnOwner = some x.role → c.delivery.turnOwner = some x.role →
    ∀ index, x.start.sent.length ≤ index → yields x.role c.sent index = false
  /-- An end that holds the token held it or took it. -/
  gain : Holds x.role c → Holds x.role x.start ∨ ∃ unit, x.received = some unit ∧
    Takes x.role x.start unit

/-- Units that yield nothing keep an end silent. -/
theorem silent_append (hc : TokenStep x c) {units : List Fas1Unit}
    (hunits : ∀ index, c.sent.length ≤ index → yields x.role (c.sent ++ units) index = false)
    (hstart : x.start.delivery.turnOwner = some x.role)
    (howner : c.delivery.turnOwner = some x.role) :
    ∀ index, x.start.sent.length ≤ index → yields x.role (c.sent ++ units) index = false := by
  intro index hindex
  by_cases hlt : index < c.sent.length
  · rw [yields_append_left x.role units hlt]
    exact hc.silent hstart howner index hindex
  · exact hunits index (Nat.le_of_not_lt hlt)

/-- Negotiation yields nothing. -/
theorem negotiating_quiet {role : AcousticRole} {type : Fas1UnitType}
    (h : Negotiating role type) : type ≠ .turnEnd ∧ ¬(type = .heartbeat ∧ role = .b) := by
  rcases h with h | ⟨rfl, rfl⟩
  · simp only [List.mem_cons, List.not_mem_nil, or_false] at h
    rcases h with rfl | rfl | rfl | rfl | rfl | rfl | rfl | rfl <;> simp
  · simp

/-- Steps of the token only add to what was sent. -/
theorem tokenStep_sent (h : Move x c d) (hc : TokenStep x c) :
    ∃ units, d.sent = x.start.sent ++ units := by
  obtain ⟨before, hbefore⟩ := hc.sent
  obtain ⟨after, hafter, -⟩ := sent_move h
  exact ⟨before ++ after, by rw [hafter, hbefore, List.append_assoc]⟩

/-- A move of an end that keeps the token yields nothing: none of the units it sends hands the token
over. -/
theorem tokenStep_silent (h : Move x c d) (hs : TokenState x.role c) (hc : TokenStep x c)
    (hx : x.role = .b → ¬x.exhausted) (hstart : x.start.delivery.turnOwner = some x.role) :
    d.delivery.turnOwner = some x.role →
      ∀ index, x.start.sent.length ≤ index → yields x.role d.sent index = false := by
  cases h with
  | negotiate _ units state hunits =>
    intro howner
    exact silent_append hc (fun index hindex =>
      yields_append_right (fun unit hmem => negotiating_quiet (hunits unit hmem)) hindex) hstart
      howner
  | reset =>
    intro howner
    simp [resetCore] at howner
  | closeTurn | skipTurn | replyAck =>
    intro howner
    simp at howner
  | commitToken => exact fun _ => hc.silent hstart hstart
  | takeToken unit timer hunit htype hstate hsession howner =>
    exact absurd (howner.symm.trans hstart) (by simp)
  | resync unit units timer hunit htype hsession hstate hunits =>
    intro howner
    have hrole : x.role = .a := (Option.some.inj howner).symm
    have hnone : units = [] := by
      rw [List.eq_nil_iff_forall_not_mem]
      intro unit hmem
      simp [(hunits unit hmem).2] at hrole
    rw [hnone, List.append_nil]
    exact hc.silent hstart hstart
  | burst _ pending turnEnd count hstate howner hactive hawaiting hmissing htype =>
    intro _
    have hdata : ∀ unit ∈ missingFragments pending, unit.type = .data := by
      intro unit hmem
      refine hs.data pending (mem_pendingOf.mpr (.inl hactive)) unit ?_
      exact List.mem_of_mem_filter (List.mem_of_mem_take hmem)
    exact silent_append hc (fun index hindex =>
      yields_burst hdata hmissing count hindex htype) hstart howner
  | unclosedHeartbeat _ beat htype hwf hexhausted =>
    intro howner
    refine silent_append hc (fun index hindex => yields_append_right ?_ hindex) hstart howner
    intro unit hmem
    rw [List.mem_singleton] at hmem
    rw [hmem, htype]
    exact ⟨by simp, fun hb => hx hb.2 hexhausted⟩
  | recoveryReply _ timer sessionId units htimer htask hunits =>
    intro howner
    refine silent_append hc (fun index hindex => yields_append_right ?_ hindex) hstart howner
    intro unit hmem
    rw [hunits unit hmem]
    refine ⟨by simp, fun hb => ?_⟩
    rw [hb.2] at howner
    exact hs.reply hb.2 timer sessionId htimer htask howner
  | partialAck _ unit pending timer hunit htype hstate hsession hactive hawaiting =>
    exact fun _ => hc.silent hstart (hs.awaiting hawaiting)
  | _ => exact hc.silent hstart

/-- A move that leaves owner and readiness alone leaves holding alone. -/
theorem Holds.of_move (hc : TokenStep x c) (howner : d.delivery.turnOwner = c.delivery.turnOwner)
    (hstate : x.role = .a → d.state = .ready → c.state = .ready) (h : Holds x.role d) :
    Holds x.role x.start ∨ ∃ unit, x.received = some unit ∧ Takes x.role x.start unit :=
  hc.gain ⟨howner ▸ h.1, fun hrole => hstate hrole (h.2 hrole)⟩

/-- An end that holds the token after a move held it or took it, from the unit it heard. -/
theorem tokenStep_gain (h : Move x c d) (hs : TokenState x.role c) (hc : TokenStep x c) :
    Holds x.role d → Holds x.role x.start ∨ ∃ unit, x.received = some unit ∧
      Takes x.role x.start unit := by
  cases h with
  | negotiate _ units state hunits hwf hstate =>
    refine Holds.of_move hc rfl ?_
    rintro - rfl
    rcases hstate with h | h | ⟨-, h⟩
    · exact h.symm
    · simp at h
    · simp [Early] at h
  | openSession _ sessionId state hrest hearly =>
    refine Holds.of_move hc rfl ?_
    rintro - rfl
    simp [Early] at hearly
  | reset => simp [Holds, resetCore]
  | commitToken =>
    rintro ⟨howner, hready⟩
    have hrole : x.role = .a := (Option.some.inj howner).symm
    simpa using hready hrole
  | degrade | recover => exact Holds.of_move hc rfl (by simp)
  | closeTurn | skipTurn | replyAck => simp [Holds]
  | burst _ pending turnEnd count hstate howner =>
    intro hholds
    exact hc.gain ⟨howner, fun _ => hstate⟩
  | takeToken unit timer hunit htype hstate hsession howner hack =>
    exact fun _ => .inr ⟨unit, hunit, hsession, .inl ⟨htype, hstate, howner, hack⟩⟩
  | resync unit units timer hunit htype hsession hstate =>
    rintro ⟨howner, -⟩
    have hrole : x.role = .a := (Option.some.inj howner).symm
    exact .inr ⟨unit, hunit, hsession, .inr ⟨htype, hrole, hstate⟩⟩
  | partialAck _ unit pending timer hunit htype hstate hsession hactive hawaiting =>
    intro hholds
    exact hc.gain ⟨hs.awaiting hawaiting, fun _ => hstate⟩
  | unansweredResync _ unit hunit hrole =>
    refine Holds.of_move hc rfl ?_
    intro ha
    simp [ha] at hrole
  | _ => exact hc.gain

/-- The moves of one step keep both. -/
theorem token_moves (hmoves : Moves x c d) (hx : x.role = .b → ¬x.exhausted)
    (hs : TokenState x.role c) (hc : TokenStep x c) :
    TokenState x.role d ∧ TokenStep x d := by
  induction hmoves with
  | refl => exact ⟨hs, hc⟩
  | tail _ hmove ih =>
    exact ⟨tokenState_move hmove ih.1, tokenStep_sent hmove ih.2,
      tokenStep_silent hmove ih.1 ih.2 hx, tokenStep_gain hmove ih.1 ih.2⟩

/-- A step begins with nothing sent and nothing gained. -/
theorem tokenStep_start (x : Context) (h : ∀ index, x.start.sent.length ≤ index →
    yields x.role x.start.sent index = false) : TokenStep x x.start :=
  ⟨⟨[], by simp⟩, fun _ _ => h, .inl⟩

instance (role : AcousticRole) (c : Core) (unit : Fas1Unit) : Decidable (Takes role c unit) :=
  inferInstanceAs (Decidable (_ ∧ _))

/-- The link, and for each end how much it had sent when it last took the token. -/
structure TurnWorld where
  /-- Both sessions and the channel. -/
  world : World
  /-- Units an end had sent when it last took the token. -/
  mark : PerRole ℕ
  deriving DecidableEq, Repr

/-- The owner in the view of an end. -/
def ownerOf (w : World) (role : AcousticRole) : Option AcousticRole :=
  (w.session.get role).delivery.turnOwner

/-- The mark of an end after a step of the link. -/
def markAfter (before after : World) (mark : ℕ) (role : AcousticRole) : ℕ :=
  if ownerOf before role ≠ some role ∧ ownerOf after role = some role then
    (after.sent role).length
  else mark

/-- One step of the link with its marks. -/
def turnStep (link : LinkOptions) (t : TurnWorld) (event : Readings × LinkEvent) : TurnWorld :=
  let after := linkStep link t.world event
  { world := after
    mark := ⟨markAfter t.world after t.mark.a .a, markAfter t.world after t.mark.b .b⟩ }

/-- Two constructed sessions with nothing sent. -/
def initialTurnWorld : TurnWorld := ⟨initialWorld, ⟨0, 0⟩⟩

/-- The marks do not change what the link does. -/
theorem run_turnStep_world (link : LinkOptions) (t : TurnWorld)
    (events : List (Readings × LinkEvent)) :
    (run (turnStep link) t events).world = run (linkStep link) t.world events := by
  induction events generalizing t with
  | nil => rfl
  | cons event events ih => exact ih (turnStep link t event)

/-- A unit that would make its receiver take the token was sent after its sender
last took it, and does not close a burst. -/
def Timely (t : TurnWorld) (receiver : AcousticRole) (index : ℕ) (unit : Fas1Unit) : Prop :=
  Takes receiver (core (t.world.session.get receiver)) unit →
    t.mark.get (complement receiver) ≤ index ∧
      (unit.type = .turnEnd → closesBurst (t.world.sent (complement receiver)) index = false)

instance (t : TurnWorld) (receiver : AcousticRole) (index : ℕ) (unit : Fas1Unit) :
    Decidable (Timely t receiver index unit) :=
  inferInstanceAs (Decidable (_ → _))

/-- The condition on one event: what arrives is timely, and B acts only while its
transmission counter is below its last value. -/
def TimelyEvent (t : TurnWorld) (event : Readings × LinkEvent) : Prop :=
  (event.2.acting = some .b → t.world.session.b.sequence ≠ uint32Max) ∧
    ∀ arrival ∈ arriving t.world event.2, Timely t arrival.1 arrival.2.1 arrival.2.2

instance (t : TurnWorld) (event : Readings × LinkEvent) : Decidable (TimelyEvent t event) :=
  inferInstanceAs (Decidable (_ ∧ _))

/-- The invariant of the link with its marks. -/
structure TurnInvariant (t : TurnWorld) : Prop where
  /-- Each end is in order. -/
  state : ∀ role, TokenState role (core (t.world.session.get role))
  /-- An end that yielded since it took the token does not hold it. -/
  silent : ∀ role index, t.mark.get role ≤ index → yields role (t.world.sent role) index = true →
    ownerOf t.world role ≠ some role
  /-- The ends do not both hold the token. -/
  exclusive : ¬(Holds .a (core t.world.session.a) ∧ Holds .b (core t.world.session.b))

/-- What a step of one end does to that end. -/
structure EndStep (role : AcousticRole) (s s' : AcousticSession) (received : Option Fas1Unit) :
    Prop where
  /-- The end stays in order. -/
  state : TokenState role (core s')
  /-- Units are only added. -/
  sent : ∃ units, s'.io.sent = s.io.sent ++ units
  /-- An end that held the token throughout has not yielded. -/
  silent : s.delivery.turnOwner = some role → s'.delivery.turnOwner = some role →
    ∀ index, s.io.sent.length ≤ index → yields role s'.io.sent index = false
  /-- An end that holds the token held it or took it. -/
  gain : Holds role (core s') → Holds role (core s) ∨ ∃ unit, received = some unit ∧
    Takes role (core s) unit

/-- Moves are an admissible step of their end. -/
theorem endStep_of_moves {role : AcousticRole} {s s' : AcousticSession} {now : ℕ}
    {received : Option Fas1Unit} {candidates : List AcousticCandidate} {exhausted wrapping : Prop}
    (hmoves : Moves ⟨role, core s, now, received, candidates, exhausted, wrapping⟩ (core s)
      (core s'))
    (hx : role = .b → ¬exhausted) (hs : TokenState role (core s)) :
    EndStep role s s' received := by
  have hquiet : ∀ index, s.io.sent.length ≤ index → yields role s.io.sent index = false := by
    intro index hindex
    simp [yields, List.getElem?_eq_none hindex]
  have h := token_moves hmoves hx hs (tokenStep_start _ hquiet)
  exact ⟨h.1, h.2.sent, h.2.silent, h.2.gain⟩

/-- An action of one end is a step of the token that hears nothing. -/
theorem endStep_act (options : AcousticSessionOptions) (readings : Readings) (action : Action)
    {s : AcousticSession} (hx : options.role = .b → s.sequence ≠ uint32Max)
    (hs : TokenState options.role (core s)) :
    EndStep options.role s (act options readings action s) none :=
  endStep_of_moves (act_moves (x := ⟨options.role, core s, readings.now, none, options.candidates,
    s.sequence = uint32Max, True⟩) readings action rfl rfl rfl rfl id (fun _ _ _ _ => trivial) hs.fit)
    hx hs

/-- Hearing a unit is a step of the token that hears it. -/
theorem endStep_deliver (options : AcousticSessionOptions) (readings : Readings) (unit : Fas1Unit)
    {s : AcousticSession} (hs : TokenState options.role (core s)) :
    EndStep options.role s (deliverUnit options readings unit s) (some unit) :=
  endStep_of_moves (deliverUnit_moves (x := ⟨options.role, core s, readings.now, some unit,
    options.candidates, False, False⟩) readings rfl rfl rfl rfl rfl) (fun _ => id) hs

/-- A timely unit that its receiver takes the token from says that its sender does
not hold it. -/
theorem yields_of_timely {t : TurnWorld} {receiver : AcousticRole} {index : ℕ} {unit : Fas1Unit}
    (hsent : (t.world.sent (complement receiver))[index]? = some unit)
    (htimely : Timely t receiver index unit)
    (htakes : Takes receiver (core (t.world.session.get receiver)) unit) :
    t.mark.get (complement receiver) ≤ index ∧
      yields (complement receiver) (t.world.sent (complement receiver)) index = true := by
  have h := htimely htakes
  refine ⟨h.1, ?_⟩
  simp only [yields, hsent, Option.any_some]
  rcases htakes.2 with ⟨htype, -⟩ | ⟨htype, rfl, -⟩
  · simp [htype, h.2 htype]
  · simp [htype, complement]

/-- A step of one end keeps the invariant, if what it takes the token from is timely. -/
theorem turnInvariant_set {t : TurnWorld} (h : TurnInvariant t) {role : AcousticRole}
    {s' : AcousticSession} {received : Option Fas1Unit} {w' : World}
    (hw : w'.session = t.world.session.set s' role)
    (hstep : EndStep role (t.world.session.get role) s' received)
    (htakes : ∀ unit, received = some unit → Takes role (core (t.world.session.get role)) unit →
      ownerOf t.world (complement role) ≠ some (complement role)) :
    TurnInvariant ⟨w', ⟨markAfter t.world w' t.mark.a .a, markAfter t.world w' t.mark.b .b⟩⟩ := by
  have hself : w'.session.get role = s' := by rw [hw, PerRole.get_set_same]
  have hother : w'.session.get (complement role) = t.world.session.get (complement role) := by
    rw [hw, PerRole.get_set_complement]
  have hmark : ∀ r, (PerRole.mk (markAfter t.world w' t.mark.a .a)
      (markAfter t.world w' t.mark.b .b)).get r = markAfter t.world w' (t.mark.get r) r := by
    intro r
    cases r <;> rfl
  have hroles : ∀ r, r = role ∨ r = complement role := by
    intro r
    cases r <;> cases role <;> simp [complement]
  refine ⟨?_, ?_, ?_⟩
  · intro r
    rcases hroles r with rfl | rfl
    · exact hself ▸ hstep.state
    · exact hother ▸ h.state _
  · intro r index hindex hyields
    rw [hmark r] at hindex
    rcases hroles r with rfl | rfl
    · intro howner
      rw [ownerOf, hself] at howner
      rw [World.sent, hself] at hyields
      obtain ⟨units, hunits⟩ := hstep.sent
      by_cases hbefore : ownerOf t.world r = some r
      · rw [markAfter, if_neg (by simp [hbefore])] at hindex
        by_cases hlt : index < (t.world.session.get r).io.sent.length
        · rw [hunits, yields_append_left r units hlt] at hyields
          exact h.silent r index hindex hyields hbefore
        · simp [hstep.silent hbefore howner index (Nat.le_of_not_lt hlt)] at hyields
      · rw [markAfter, if_pos ⟨hbefore, by rw [ownerOf, hself, howner]⟩, World.sent, hself] at hindex
        simp [yields, List.getElem?_eq_none hindex] at hyields
    · have howner : ownerOf w' (complement role) = ownerOf t.world (complement role) := by
        rw [ownerOf, ownerOf, hother]
      rw [markAfter, howner, if_neg (by tauto)] at hindex
      rw [World.sent, hother] at hyields
      rw [howner]
      exact h.silent _ index hindex hyields
  · have hexclusive : ¬(Holds role (core s') ∧
        Holds (complement role) (core (t.world.session.get (complement role)))) := by
      rintro ⟨hmine, htheirs⟩
      rcases hstep.gain hmine with hheld | ⟨unit, hunit, htaken⟩
      · cases role with
        | a => exact h.exclusive ⟨hheld, htheirs⟩
        | b => exact h.exclusive ⟨htheirs, hheld⟩
      · exact htakes unit hunit htaken htheirs.1
    cases role with
    | a =>
      rintro ⟨ha, hb⟩
      exact hexclusive ⟨hself ▸ ha, hother ▸ hb⟩
    | b =>
      rintro ⟨ha, hb⟩
      exact hexclusive ⟨hself ▸ hb, hother ▸ ha⟩

/-- A step that changes no session keeps the invariant. -/
theorem turnInvariant_idle {t : TurnWorld} (h : TurnInvariant t) {w' : World}
    (hw : w'.session = t.world.session) :
    TurnInvariant ⟨w', ⟨markAfter t.world w' t.mark.a .a, markAfter t.world w' t.mark.b .b⟩⟩ := by
  have howner : ∀ r, ownerOf w' r = ownerOf t.world r := fun r => by rw [ownerOf, ownerOf, hw]
  have hsent : ∀ r, w'.sent r = t.world.sent r := fun r => by rw [World.sent, World.sent, hw]
  have hmark : ∀ r mark, markAfter t.world w' mark r = mark := by
    intro r mark
    rw [markAfter, howner, if_neg (by tauto)]
  refine ⟨fun r => hw ▸ h.state r, ?_, hw ▸ h.exclusive⟩
  intro r index hindex hyields
  simp only [hmark] at hindex
  rw [howner]
  exact h.silent r index hindex (hsent r ▸ hyields)

/-- One timely event keeps the invariant. -/
theorem turnInvariant_step (link : LinkOptions) (t : TurnWorld) (event : Readings × LinkEvent)
    (hevent : TimelyEvent t event) (h : TurnInvariant t) : TurnInvariant (turnStep link t event) := by
  unfold turnStep
  rcases linkStep_cases link t.world event with hw | ⟨role, action, hact, hw⟩ |
    ⟨role, index, unit, harriving, hw⟩
  · exact turnInvariant_idle h hw
  · have hstate := h.state role
    have hstep := endStep_act (link.of role) event.1 action
      (s := t.world.session.get role) (by
        intro hb
        rw [link.of_role] at hb
        subst hb
        exact hevent.1 (by rw [hact]; rfl)) (by rwa [link.of_role])
    rw [link.of_role] at hstep
    exact turnInvariant_set h hw hstep (by simp)
  · have hstate := h.state role
    have hstep := endStep_deliver (link.of role) event.1 unit
      (s := t.world.session.get role) (by rwa [link.of_role])
    rw [link.of_role] at hstep
    refine turnInvariant_set h hw hstep ?_
    intro other hother htakes
    obtain rfl := Option.some.inj hother
    have hyields := yields_of_timely (arriving_sent harriving)
      (hevent.2 _ harriving) htakes
    exact h.silent _ index hyields.1 hyields.2

/-- At the start the first role owns the turn and nothing is in flight. -/
theorem turnInvariant_initial : TurnInvariant initialTurnWorld := by
  refine ⟨?_, ?_, ?_⟩
  · intro role
    cases role <;>
      exact ⟨by decide, by decide, by decide, by decide, fun _ _ _ h => by cases h⟩
  · intro role index _ h
    cases role <;> simp [yields, initialTurnWorld, initialWorld, World.sent, PerRole.get,
      initialSession] at h
  · simp [Holds, initialTurnWorld, initialWorld, core, initialSession]

/-- Two ready ends of one session do not both own the turn. -/
def OneOwner (w : World) : Prop :=
  w.session.a.state = .ready → w.session.b.state = .ready →
    w.session.a.link.sessionId = w.session.b.link.sessionId →
      ¬(ownerOf w .a = some .a ∧ ownerOf w .b = some .b)

instance (w : World) : Decidable (OneOwner w) :=
  inferInstanceAs (Decidable (_ → _ → _ → ¬_))

/-- In every run whose events are timely, two ready ends of one session never both
own the turn. -/
theorem oneOwner_of_timely (link : LinkOptions) (events : List (Readings × LinkEvent))
    (h : Along (turnStep link) TimelyEvent initialTurnWorld events) :
    OneOwner (runLink link events) := by
  have hinv := invariant_along (turnStep link) (turnInvariant_step link) turnInvariant_initial h
  have hworld := run_turnStep_world link initialTurnWorld events
  intro ha hb _ howner
  have hexclusive := hinv.exclusive
  rw [hworld] at hexclusive
  exact hexclusive ⟨⟨howner.1, fun _ => ha⟩, ⟨howner.2, by simp⟩⟩

/-- A packet, its ACK and the next turn of B, nothing lost. -/
def benchExchange : List (Readings × LinkEvent) :=
  benchEstablish ++ [benchAct .a (.enqueuePacket [7] .ordinary), benchDeliver .b, benchDeliver .b,
    benchDeliver .a, benchDeliver .b]

set_option maxRecDepth 8000 in
/-- The exchange is timely and the token has one owner after it. -/
theorem oneOwner_benchExchange :
    Along (turnStep benchLink) TimelyEvent initialTurnWorld benchExchange ∧
      OneOwner (runLink benchLink benchExchange) := by
  have h : Along (turnStep benchLink) TimelyEvent initialTurnWorld benchExchange := by
    decide +kernel
  exact ⟨h, oneOwner_of_timely benchLink benchExchange h⟩

/-- The only DATA unit of a burst is lost and its TURN_END arrives: B takes the
token while A waits for its ACK. -/
def benchLostBurst : List (Readings × LinkEvent) :=
  benchEstablish ++ [benchAct .a (.enqueuePacket [7] .ordinary), benchLose .b, benchDeliver .b]

set_option maxRecDepth 8000 in
/-- Delivery in order alone does not keep the token with one owner. -/
theorem not_oneOwner_of_inOrder : ¬∀ (link : LinkOptions) (events : List (Readings × LinkEvent)),
    Along (linkStep link) (fun w event => inOrder w event.2) initialWorld events →
      OneOwner (runLink link events) := by
  intro h
  have hfails : ¬OneOwner (runLink benchLink benchLostBurst) := by decide +kernel
  exact hfails (h benchLink benchLostBurst (by decide +kernel))

end Fipwave.TurnToken
