import Fipwave.ServerContracts

/-!
# Runs of a bridge

From the moment a bridge listens, each of its steps is a sequence of moves of
one actor, whatever happened before: the methods that wait keep their
contracts, and methods of one socket or of one call never overlap. So what
every move keeps holds in every state of every run, and what moves under a
condition keep holds in every run whose steps meet it. One such condition is
that nobody calls a session that is overdue.
-/

namespace Fipwave.BridgeMoves

open Relation FwavProtocol QualificationSession BridgePorts BridgeReport BridgeTrial
  BridgeMethods BridgeServer AsyncMethod TrialMoves PortMoves TransitionRun

variable (options : BridgeServerOptions) (prompt : Prop)

/-- Who acts in a step. -/
def actorOf (w : World) : Event → Actor
  | .connectBrowser => .greeting w.state.ports.socketCount
  | .receive socket message => .arrival socket message
  | .process socket =>
    match (w.state.ports.sockets socket).inbox with
    | [] => .environment
    | message :: _ => .handler socket message
  | .beginClose socket => .hangup socket
  | .closed socket => .closure socket
  | .expiryTimer => .expiryTimer
  | .operatorReset call => .operatorReset call
  | .operatorStart call => .operatorStart call
  | .operatorPlayback _ => .operatorPlayback
  | .resume index _ => (w.processes[index]?.map (·.part)).getD .environment
  | _ => .environment

/-- The methods that wait keep their contracts, and the bridge is in good order. -/
structure Sound (w : World) : Prop where
  /-- They do. -/
  orderly : Orderly (discipline options prompt) w
  /-- It is. -/
  standing : Standing w.state

/-- A step is a sequence of moves of one actor, after a message was taken or a call made. -/
structure Evolves (w : World) (e : Event) : Prop where
  /-- The step. -/
  moves : ∃ b, (b = w.state ∨ Prepares (actorOf w e) w.state b) ∧
    ReflTransGen (Move options prompt (actorOf w e)) b (step options w e).state
  /-- The bridge stays sound. -/
  sound : Sound options prompt (step options w e)

/-- The step does not let a method call a session that became overdue after the method had checked
the time. -/
def timely (w : World) : Event → Bool
  | .resume index _ =>
    !((w.processes[index]?).any (·.on = .sessionCall) && overdue w.state.trial.session)
  | _ => true

/-- Where everybody is prompt, a step is timely. -/
def Timely (w : World) (e : Event) : Prop := prompt → timely w e = true

variable {options} {prompt}

/-- An actor that is no agent and may not reset stands beside every other. -/
theorem coexist_of_trivial {p : Actor} (q : Actor) (hq : isAgent q = false)
    (hreset : mayReset q = false) : coexist p q := by
  cases q with
  | handler => cases hq
  | operatorStart => cases hq
  | operatorReset => cases hreset
  | _ => cases p <;> trivial

/-- A method proved safe for its actor upholds the contract of that actor. -/
theorem upholds_of_safely {α : Type} {a : Actor} {P : Bridge → Prop} {f : BridgeM α}
    (h : Safely options prompt a P f (fun _ _ => True)) {b : Bridge} (hb : Standing b) (hP : P b) :
    Upholds (contract options prompt a) (fun _ _ => True) (fun _ _ => True) b (f b) :=
  (h b ⟨hb, hP⟩).mono (fun _ _ _ => trivial) (fun _ _ _ => trivial)

/-- Beginning a method of an actor that coexists with those that wait. -/
theorem evolves_launch {w : World} {a : Actor} {P : Bridge → Prop} {f : BridgeM Unit}
    (hw : Sound options prompt w) (hcoexist : ∀ p ∈ w.processes, coexist p.part a)
    (hf : Safely options prompt a P f (fun _ _ => True)) (hP : P w.state) :
    ReflTransGen (Move options prompt a) w.state (launch a f w).state ∧
      Sound options prompt (launch a f w) := by
  obtain ⟨hmoves, horderly⟩ := orderly_launch hw.orderly hcoexist
    (upholds_of_safely hf hw.standing hP)
  exact ⟨hmoves, horderly, standing_of_moves hmoves hw.standing⟩

/-- A message is taken or a call made while others wait. -/
theorem sound_prepare {w : World} {a : Actor} {b : Bridge} (hw : Sound options prompt w)
    (hcoexist : ∀ p ∈ w.processes, coexist p.part a) (h : Prepares a w.state b) :
    Sound options prompt { w with state := b } := by
  refine ⟨Orderly.evolve hw.orderly (fun p hp => ?_), h.standing hw.standing⟩
  exact .single ⟨a, hcoexist p hp, .inr h⟩

/-- Where no handler of the socket is waiting, a new one stands beside the others. -/
theorem coexist_of_not_waits {socket : ℕ} {message : RawMessage} {w : World}
    (h : ¬handlerWaits socket w = true) :
    ∀ p ∈ w.processes, coexist p.part (.handler socket message) := by
  intro p hp
  simp only [handlerWaits, List.any_eq_true, not_exists, not_and] at h
  have hpart := h p hp
  cases hp' : p.part with
  | handler other m =>
    rw [hp'] at hpart
    simpa [coexist] using hpart
  | _ => trivial

/-- A step that does nothing evolves the bridge as asked. -/
theorem evolves_still {w : World} {e : Event} (hw : Sound options prompt w)
    (h : step options w e = w) : Evolves options prompt w e :=
  ⟨⟨w.state, .inl rfl, by rw [h]⟩, by rwa [h]⟩

/-- A step that begins a method makes the moves of that method up to its first wait. -/
theorem evolves_of_launch {w : World} {e : Event} {P : Bridge → Prop} {f : BridgeM Unit}
    (hw : Sound options prompt w) (h : step options w e = launch (actorOf w e) f w)
    (hcoexist : ∀ p ∈ w.processes, coexist p.part (actorOf w e))
    (hf : Safely options prompt (actorOf w e) P f (fun _ _ => True)) (hP : P w.state) :
    Evolves options prompt w e := by
  obtain ⟨hmoves, hsound⟩ := evolves_launch hw hcoexist hf hP
  exact ⟨⟨w.state, .inl rfl, by rw [h]; exact hmoves⟩, by rwa [h]⟩

/-- A step that begins a method after it was prepared. -/
theorem evolves_of_prepare {w : World} {e : Event} {P : Bridge → Prop} {f : BridgeM Unit}
    {b : Bridge} (hw : Sound options prompt w)
    (h : step options w e = launch (actorOf w e) f { w with state := b })
    (hcoexist : ∀ p ∈ w.processes, coexist p.part (actorOf w e))
    (hprepares : Prepares (actorOf w e) w.state b)
    (hf : Safely options prompt (actorOf w e) P f (fun _ _ => True)) (hP : P b) :
    Evolves options prompt w e := by
  obtain ⟨hmoves, hsound⟩ := evolves_launch (sound_prepare hw hcoexist hprepares) hcoexist hf hP
  exact ⟨⟨b, .inr hprepares, by rw [h]; exact hmoves⟩, by rwa [h]⟩

/-- A prepared agent has nothing begun. -/
theorem begun_prepared {a : Actor} {b b' : Bridge} (h : Prepares a b b') :
    b'.trial.begun a = none := by
  rw [h.trial, begun_forgetBegin, if_pos rfl]

/-- Taking a message off a socket leaves its endpoint. -/
theorem endpoint_takeMessage (socket : ℕ) (message : RawMessage) (p : Ports) :
    ((takeMessage socket message p).sockets socket).endpoint = (p.sockets socket).endpoint := by
  unfold takeMessage
  dsimp only
  split <;> simp [modifySocket, record]

/-- The next message of a socket is handled. -/
theorem evolves_process {w : World} (socket : ℕ) (hw : Sound options prompt w) :
    Evolves options prompt w (.process socket) := by
  cases hinbox : (w.state.ports.sockets socket).inbox with
  | nil => exact evolves_still hw (by simp [step, processMessage, hinbox])
  | cons message rest =>
    by_cases hwaits : handlerWaits socket w = true
    · exact evolves_still hw (by simp [step, processMessage, hinbox, hwaits])
    · have hactor : actorOf w (.process socket) = .handler socket message := by
        simp [actorOf, hinbox]
      have hstep : step options w (.process socket) = launch (.handler socket message)
          (handleMessage options (w.state.ports.sockets socket).endpoint socket message)
          { w with state := beginMessage socket message w.state } := by
        simp [step, processMessage, hinbox, hwaits]
      have hprepares : Prepares (.handler socket message) w.state
          (beginMessage socket message w.state) := .message socket message w.state
      have hsocket : socket < w.state.ports.socketCount :=
        hw.standing.placed socket (.inr (by rw [hinbox]; simp))
      have hcount := hsocket.trans_le hprepares.spares.count
      have hnone := begun_prepared hprepares
      have hcoexist : ∀ p ∈ w.processes, coexist p.part (.handler socket message) :=
        coexist_of_not_waits hwaits
      rw [← hactor] at hstep hprepares hcoexist
      cases hendpoint : (w.state.ports.sockets socket).endpoint with
      | fips =>
        rw [hendpoint] at hstep
        refine evolves_of_prepare hw hstep hcoexist hprepares
          (hactor ▸ safely_handleFips options) ?_
        exact (endpoint_takeMessage socket message _).trans hendpoint
      | browser =>
        rw [hendpoint] at hstep
        refine evolves_of_prepare hw hstep hcoexist hprepares
          (hactor ▸ safely_handleFrame options) ?_
        exact ⟨by rw [hactor]; exact hnone, hcount⟩

/-- A method that waits goes on: its actor moves. -/
theorem moves_resume {w : World} (index : ℕ) (reply : Reply)
    (htimely : Timely prompt w (.resume index reply)) (hw : Sound options prompt w) :
    ReflTransGen (Move options prompt (actorOf w (.resume index reply))) w.state
        (step options w (.resume index reply)).state ∧
      Sound options prompt (step options w (.resume index reply)) := by
  have hdue : prompt → ∀ p, w.processes[index]? = some p → p.on = .sessionCall →
      overdue w.state.trial.session = false := by
    intro hprompt p hp hcall
    simpa [timely, hp, hcall] using htimely hprompt
  have hresume : (resumeAt admits index reply w = w ∨ ∃ p, w.processes[index]? = some p ∧
      (contract options prompt p.part).guarantee w.state (resumeAt admits index reply w).state) ∧
      Orderly (discipline options prompt) (resumeAt admits index reply w) :=
    orderly_resumeAt hw.orderly (fun p hp hadmits =>
      ⟨hadmits, fun hprompt hcall => hdue hprompt p hp hcall⟩)
  obtain ⟨hcases, horderly⟩ := hresume
  rcases hcases with hsame | ⟨p, hp, hmoves⟩
  · have hstep : step options w (.resume index reply) = w := hsame
    rw [hstep]
    exact ⟨.refl, hw⟩
  · have hactor : actorOf w (.resume index reply) = p.part := by
      simp [actorOf, hp]
    exact ⟨hactor ▸ hmoves, horderly, standing_of_moves hmoves hw.standing⟩

/-- Every step of a sound bridge is a sequence of moves of one actor, of prompt ones if it is
timely. -/
theorem evolves_timely {w : World} (e : Event) (htimely : Timely prompt w e)
    (hw : Sound options prompt w) : Evolves options prompt w e := by
  have hfree : ∀ a : Actor, isAgent a = false → mayReset a = false →
      ∀ p ∈ w.processes, coexist p.part a := fun a hagent hreset _ _ =>
    coexist_of_trivial a hagent hreset
  cases e with
  | connectBrowser =>
    exact evolves_of_launch hw rfl (hfree _ rfl rfl) (safely_greetBrowser options) rfl
  | connectFips =>
    refine evolves_of_launch (P := fun _ => True) hw rfl (hfree _ rfl rfl) ?_ trivial
    exact safely_onPorts (fun _ _ _ => ⟨.joins rfl, trivial⟩)
  | receive socket message =>
    by_cases hattached : (w.state.ports.sockets socket).attached = true
    · exact evolves_of_launch hw (by simp [step, hattached, actorOf]) (hfree _ rfl rfl)
        (safely_receive options) hattached
    · exact evolves_still hw (by simp [step, hattached])
  | process socket => exact evolves_process socket hw
  | beginClose socket =>
    refine evolves_of_launch (P := fun _ => True) hw rfl (hfree _ rfl rfl) ?_ trivial
    exact safely_onPorts (fun _ _ _ => ⟨.rejects socket (.inl rfl), trivial⟩)
  | closed socket =>
    by_cases hattached : (w.state.ports.sockets socket).attached = true
    · exact evolves_of_launch hw (by simp [step, hattached, actorOf]) (hfree _ rfl rfl)
        (safely_closeSocket options) hattached
    · exact evolves_still hw (by simp [step, hattached])
  | retryTimer timer =>
    by_cases htimer : timer ∈ w.state.ports.retryTimers
    · have hretry : Safely options prompt .environment (fun b => timer ∈ b.ports.retryTimers)
          (onPorts (retryBrowserAdmission options.ports timer)) (fun _ _ => True) :=
        safely_onPorts (fun _ _ hb => ⟨.retries rfl hb, trivial⟩)
      exact evolves_of_launch hw (by simp [step, htimer, actorOf]) (hfree _ rfl rfl) hretry htimer
    · exact evolves_still hw (by simp [step, htimer])
  | expiryTimer =>
    by_cases htimer : w.state.trial.cyrinxExpiryTimer = true
    · exact evolves_of_launch hw (by simp [step, htimer, actorOf]) (hfree _ rfl rfl)
        (safely_expiryTimer options) trivial
    · exact evolves_still hw (by simp [step, htimer])
  | operatorReset call =>
    by_cases hany : (w.processes.any (·.part = .operatorReset call)) = true
    · exact evolves_still hw (by simp only [step, hany, if_true])
    · refine evolves_of_launch hw
        (by simp only [step, hany, Bool.false_eq_true, if_false, actorOf]) ?_
        (safely_reset options call false) (hw.standing.poised.none_of_not_agent rfl)
      intro p hp
      simp only [List.any_eq_true, not_exists, not_and, decide_eq_true_eq] at hany
      have hpart := hany p hp
      cases hp' : p.part with
      | operatorReset other =>
        rw [hp'] at hpart
        simpa [coexist, actorOf] using hpart
      | _ => trivial
  | operatorStart call =>
    by_cases hany : (w.processes.any (·.part = .operatorStart call)) = true
    · exact evolves_still hw (by simp only [step, hany, if_true])
    · have hprepares : Prepares (.operatorStart call) w.state
          { w.state with trial := forgetBegin (.operatorStart call) w.state.trial } :=
        .call call w.state
      refine evolves_of_prepare hw
        (by simp only [step, hany, Bool.false_eq_true, if_false, actorOf]) ?_ hprepares
        ((safely_startCyrinx options rfl rfl).bind (fun _ => safely_pure () (fun _ _ => trivial)))
        (begun_prepared hprepares)
      intro p hp
      simp only [List.any_eq_true, not_exists, not_and, decide_eq_true_eq] at hany
      have hpart := hany p hp
      cases hp' : p.part with
      | operatorStart other =>
        rw [hp'] at hpart
        simpa [coexist, actorOf] using hpart
      | _ => trivial
  | operatorPlayback encoded =>
    refine evolves_of_launch (P := fun b => Fresh .operatorPlayback b.trial) hw rfl
      (hfree _ rfl rfl) (calmly_forwardPlayback options encoded).toSafely ?_
    exact fresh_of_none (hw.standing.poised.none_of_not_agent rfl)
  | beginWrite index =>
    exact evolves_of_launch hw rfl (hfree _ rfl rfl) (safely_beginWrite options index) trivial
  | endWrite index succeeded =>
    exact evolves_of_launch hw rfl (hfree _ rfl rfl)
      (safely_concludeWrite options index succeeded) trivial
  | microtask =>
    by_cases hnone : w.state.trial.microtasks = 0
    · exact evolves_still hw (by simp [step, hnone])
    · exact evolves_of_launch hw (by simp [step, hnone, actorOf]) (hfree _ rfl rfl)
        (safely_microtask options) trivial
  | resume index reply =>
    obtain ⟨hmoves, hsound⟩ := moves_resume index reply htimely hw
    exact ⟨⟨w.state, .inl rfl, hmoves⟩, hsound⟩

/-- Where nobody need be prompt, every step will do. -/
theorem evolves_step {w : World} (e : Event) (hw : Sound options False w) :
    Evolves options False w e :=
  evolves_timely e False.elim hw

/-- The bridge is sound when it begins to listen. -/
theorem sound_createBridgeServer : Sound options prompt (createBridgeServer options) := by
  refine ⟨⟨by simp [createBridgeServer], by simp [createBridgeServer]⟩, ?_, ?_⟩
  · have hidle : Poised ({} : Trial) :=
      ⟨wellFormed_idle, by simp, by simp, by simp⟩
    unfold createBridgeServer
    dsimp only
    split
    · exact hidle
    · refine ⟨wellFormed_idle, by simp [chainWrite], by simp [chainWrite], ?_⟩
      intro n task htask
      rcases n with _ | n
      · simp only [chainWrite, List.nil_append, List.map_cons, List.map_nil,
          List.getElem?_cons_zero, Option.some.injEq] at htask
        subst htask
        simp [chainWrite]
      · simp [chainWrite] at htask
  · intro k hk
    simp [createBridgeServer] at hk

/-- The bridge is sound in every state it reaches. -/
theorem sound_run (events : List Event) :
    Sound options False (run (step options) (createBridgeServer options) events) :=
  invariant (step options) (I := Sound options False) (fun _ e hw => (evolves_step e hw).sound)
    sound_createBridgeServer events

/-- It is, with everybody prompt, in every state it reaches in timely steps. -/
theorem sound_along {w : World} (hw : Sound options prompt w) {events : List Event}
    (htimely : Along (step options) (Timely prompt) w events) :
    Sound options prompt (run (step options) w events) :=
  invariant_along (step options) (I := Sound options prompt)
    (fun _ e ht hw => (evolves_timely e ht hw).sound) hw htimely

section Relations

variable {R : Bridge → Bridge → Prop} (hrefl : ∀ b, R b b)
  (htrans : ∀ b b' b'', R b b' → R b' b'' → R b b'')

include hrefl htrans

/-- A relation that every move keeps is kept by every sequence of moves. -/
theorem relation_of_moves {a : Actor}
    (hmove : ∀ b b', Standing b → Move options prompt a b b' → R b b') {b b' : Bridge}
    (h : ReflTransGen (Move options prompt a) b b') (hb : Standing b) : R b b' := by
  induction h with
  | refl => exact hrefl b
  | tail hmoves hlast ih =>
    exact htrans _ _ _ ih (hmove _ _ (standing_of_moves hmoves hb) hlast)

/-- What every move of an actor does, a step of that actor does. -/
theorem step_relation {w : World} {e : Event}
    (hprepares : ∀ b b', Standing b → Prepares (actorOf w e) b b' → R b b')
    (hmove : ∀ b b', Standing b → Move options prompt (actorOf w e) b b' → R b b')
    (hw : Standing w.state) (hevolves : Evolves options prompt w e) :
    R w.state (step options w e).state := by
  obtain ⟨b, hb, hmoves⟩ := hevolves.moves
  rcases hb with rfl | hb
  · exact relation_of_moves hrefl htrans hmove hmoves hw
  · exact htrans _ _ _ (hprepares _ _ hw hb)
      (relation_of_moves hrefl htrans hmove hmoves (hb.standing hw))

/-- What every move does, a run of timely steps does. -/
theorem relation_along (hprepares : ∀ a b b', Standing b → Prepares a b b' → R b b')
    (hmove : ∀ a b b', Standing b → Move options prompt a b b' → R b b') {w : World}
    (hw : Sound options prompt w) {events : List Event}
    (htimely : Along (step options) (Timely prompt) w events) :
    R w.state (run (step options) w events).state := by
  induction events generalizing w with
  | nil => exact hrefl _
  | cons e events ih =>
    have hevolves := evolves_timely e htimely.1 hw
    exact htrans _ _ _ (step_relation hrefl htrans (hprepares _) (hmove _) hw.standing hevolves)
      (ih hevolves.sound htimely.2)

end Relations

section TrialRelations

variable {T : Trial → Trial → Prop} (hrefl : ∀ t, T t t)
  (htrans : ∀ t t' t'', T t t' → T t' t'' → T t t'') (hforget : ∀ a t, T t (forgetBegin a t))

include hrefl

/-- What every move of the qualification does to it, a move of the bridge does. -/
theorem trial_of_move {a : Actor}
    (hmove : ∀ t t', TrialMove options.trial prompt a t t' → T t t') {b b' : Bridge}
    (h : Move options prompt a b b') : T b.trial b'.trial := by
  rcases h.trial_cases with heq | htrial
  · rw [heq]
    exact hrefl b.trial
  · exact hmove _ _ htrial

include htrans hforget

/-- What every move of an actor does to the qualification, a step of that actor does. -/
theorem trial_step {w : World} {e : Event}
    (hmove : ∀ t t', TrialMove options.trial prompt (actorOf w e) t t' → T t t')
    (hw : Standing w.state) (hevolves : Evolves options prompt w e) :
    T w.state.trial (step options w e).state.trial := by
  refine step_relation (R := fun b b' => T b.trial b'.trial) (fun b => hrefl b.trial)
    (fun b b' b'' => htrans b.trial b'.trial b''.trial) (fun b b' _ h => ?_)
    (fun b b' _ h => trial_of_move hrefl hmove h) hw hevolves
  rw [h.trial]
  exact hforget _ b.trial

/-- What every move does to the qualification, a run of timely steps does. -/
theorem trial_along (hmove : ∀ a t t', TrialMove options.trial prompt a t t' → T t t') {w : World}
    (hw : Sound options prompt w) {events : List Event}
    (htimely : Along (step options) (Timely prompt) w events) :
    T w.state.trial (run (step options) w events).state.trial := by
  refine relation_along (R := fun b b' => T b.trial b'.trial) (fun b => hrefl b.trial)
    (fun b b' b'' => htrans b.trial b'.trial b''.trial) (fun a b b' _ h => ?_)
    (fun a b b' _ h => trial_of_move hrefl (hmove a) h) hw htimely
  rw [h.trial]
  exact hforget a b.trial

/-- What every move does to the qualification, every run does. -/
theorem trial_run (hmove : ∀ a t t', TrialMove options.trial False a t t' → T t t') {w : World}
    (hw : Sound options False w) (events : List Event) :
    T w.state.trial (run (step options) w events).state.trial :=
  trial_along hrefl htrans hforget hmove hw
    (along_iff (step options) |>.mpr (fun _ _ _ _ => False.elim))

end TrialRelations

/-- What an actor may count on while it moves stays true of its moves. -/
theorem keep_moves {a : Actor} {I G : Bridge → Prop}
    (hmove : ∀ b b', Standing b → Move options prompt a b b' → I b → G b → I b' ∧ G b') {b b' : Bridge}
    (h : ReflTransGen (Move options prompt a) b b') (hb : Standing b) (hI : I b) (hG : G b) :
    I b' ∧ G b' := by
  induction h with
  | refl => exact ⟨hI, hG⟩
  | tail hmoves hlast ih => exact hmove _ _ (standing_of_moves hmoves hb) hlast ih.1 ih.2

/-- What the moves of an actor and the taking of its message keep is kept by a step. -/
theorem step_keeps {w : World} {e : Event} {I G : Bridge → Prop}
    (hprepares : ∀ b b', Standing b → Prepares (actorOf w e) b b' → I b → G b → I b' ∧ G b')
    (hmove : ∀ b b', Standing b → Move options False (actorOf w e) b b' → I b → G b → I b' ∧ G b')
    (hw : Sound options False w) (hI : I w.state) (hG : G w.state) :
    I (step options w e).state := by
  obtain ⟨b, hb, hmoves⟩ := (evolves_step e hw).moves
  rcases hb with rfl | hb
  · exact (keep_moves hmove hmoves hw.standing hI hG).1
  · obtain ⟨hI', hG'⟩ := hprepares _ _ hw.standing hb hI hG
    exact (keep_moves hmove hmoves (hb.standing hw.standing) hI' hG').1

/-- What moves and the taking of messages keep holds in every state the bridge reaches, in every
run whose steps meet a condition. The condition gives each actor something to count on. -/
theorem bridge_invariant {C : World → Event → Prop} {I : Bridge → Prop}
    {G : Actor → Bridge → Prop}
    (hguard : ∀ w e, C w e → I w.state → G (actorOf w e) w.state)
    (hprepares : ∀ a b b', Standing b → Prepares a b b' → I b → G a b → I b' ∧ G a b')
    (hmove : ∀ a b b', Standing b → Move options False a b b' → I b → G a b → I b' ∧ G a b')
    (hstart : I (createBridgeServer options).state) {events : List Event}
    (hc : Along (step options) C (createBridgeServer options) events) :
    I (run (step options) (createBridgeServer options) events).state := by
  have hboth : Sound options False (run (step options) (createBridgeServer options) events) ∧
      I (run (step options) (createBridgeServer options) events).state := by
    refine invariant_along (step options) (I := fun w => Sound options False w ∧ I w.state) ?_
      ⟨sound_createBridgeServer, hstart⟩ hc
    intro w e hcond ⟨hw, hI⟩
    exact ⟨(evolves_step e hw).sound,
      step_keeps (hprepares _) (hmove _) hw hI (hguard w e hcond hI)⟩
  exact hboth.2

/-- The unconditional form. -/
theorem bridge_always {I : Bridge → Prop}
    (hprepares : ∀ a b b', Standing b → Prepares a b b' → I b → I b')
    (hmove : ∀ a b b', Standing b → Move options False a b b' → I b → I b')
    (hstart : I (createBridgeServer options).state) (events : List Event) :
    I (run (step options) (createBridgeServer options) events).state := by
  have halong : Along (step options) (fun _ _ => True) (createBridgeServer options) events :=
    along_true (step options) _ events
  exact bridge_invariant (G := fun _ _ => True) (fun _ _ _ _ => trivial)
    (fun a b b' hb h hI _ => ⟨hprepares a b b' hb h hI, trivial⟩)
    (fun a b b' hb h hI _ => ⟨hmove a b b' hb h hI, trivial⟩) hstart halong

section Bench

/-- A binary message that carries a frame. -/
def benchMessage (frame : FwavFrame) : RawMessage := ⟨true, (encodeFrame frame).toOption.getD []⟩

/-- Configuration of a runner on the bench. -/
def benchConfig : RunnerQualificationConfig where
  machineId := "bench"
  role := .b
  reportTarget := "report"
  evidenceClass := .openAir
  codec := quietCodec
  qualification :=
    { deadLinkTimeoutMs := qualificationDeadLinkTimeoutMs
      cyrinxDeadlineMs := QualificationSession.cyrinxDeadlineMs
      startedAtMs := none
      deadlineAtMs := none
      elapsedMs := none
      physicalGate := .pending
      fallbackState := .available
      reasonCode := none
      stage := .idle
      coldReceivePassed := false }

/-- A bridge on the bench: sends do not throw, capabilities differ and the clock stands still. -/
def benchOptions (corpus : List CorpusEntry) (parseJson : ByteWords.Bytes → Option Json) :
    BridgeServerOptions where
  ports :=
    { packetQueueLimits := {}
      randomBytes := fun issue => List.replicate 16 (ByteWords.lowByte (issue + 1))
      sendThrows := fun _ => false }
  trial :=
    { config := some benchConfig
      reportAuthority := some ⟨"commit", "os", "architecture"⟩
      corpus }
  now := fun _ => 0
  cyrinxWorker := true
  parseJson

/-- A result of a browser as JSON. -/
def benchResult (caseId digest : String) (cold : Bool) : Json :=
  .obj [("caseId", .str caseId), ("digest", .str digest), ("acquisitionMs", .num 0),
    ("airtimeMs", .num 0), ("deliveryCount", .num 1), ("bytePerfect", .bool true),
    ("coldAcquired", .bool cold), ("complete", .bool true), ("corrupt", .bool false),
    ("missing", .num 0), ("duplicates", .num 0),
    ("queues", .obj [("captureHighWaterBytes", .num 0), ("captureHighWaterMs", .num 0),
      ("discontinuities", .num 0), ("playbackHighWaterBytes", .num 0),
      ("playbackHighWaterMs", .num 0)])]

/-- A digest of a case on the bench. -/
def benchDigest : String := String.ofList (List.replicate 64 'a')

/-- A bridge with one case; the payload of one byte is a result of it. -/
def benchBridge : BridgeServerOptions :=
  benchOptions [⟨"case", .aToB, 256, benchDigest⟩]
    (fun payload => if payload = [1] then some (benchResult "case" benchDigest false) else none)

/-- The result of the case. -/
def benchCaseResult (epoch sequence : ℕ) : RawMessage :=
  benchMessage { type := .qualificationResult, epoch, sequence, payload := [1] }

end Bench

end Fipwave.BridgeMoves
