import Fipwave.PortMoves
import Fipwave.TrialSteps

/-!
# What can happen to a bridge

A section of a method is a sequence of moves of its actor on the ports and on
the qualification; sound of the worker and a result of a native case are sent
only by an actor whose counters are current, and the answer to a result only
together with its acknowledgement in the current generation. Between two
sections other actors move, and the next message of another socket may be
taken. What an actor is in the middle of, what it began and what it has to
acknowledge is left to it. Where everybody is prompt, no call of the session
finds it overdue.
-/

namespace Fipwave.BridgeMoves

open Relation FwavProtocol QualificationSession BridgePorts BridgeReport BridgeTrial
  BridgeMethods BridgeServer AsyncMethod TrialMoves PortMoves

variable (options : BridgeServerOptions) (prompt : Prop)

/-- A move of an actor. -/
inductive Move (a : Actor) : Bridge → Bridge → Prop
  | ports {b : Bridge} {p : Ports} (h : PortMove options.ports a b.ports p) :
      Move a b { b with ports := p }
  | trial {b : Bridge} {t : Trial} (h : TrialMove options.trial prompt a b.trial t) :
      Move a b { b with trial := t }
  | reads (b : Bridge) : Move a b { b with readings := b.readings + 1 }
  | plays {b : Bridge} (encoded : ByteWords.Bytes) (hfresh : Fresh a b.trial) :
      Move a b { b with ports := broadcast (.playback encoded) b.ports }
  | results {b : Bridge} (socket epoch : ℕ) (direction : LiteralDirection) (cold : Bool)
      (k : Acknowledgement) (hkind : k.kind = .cyrinxResult) (hagent : isAgent a = true)
      (hfresh : Fresh a b.trial) (hdurable : Durable options.trial k.toCaseFact b.trial)
      (hgeneration : k.generation = b.trial.generation)
      (hresult : cold = false → k.record.result ≠ none) :
      Move a b { b with
        ports := send socket (.cyrinxResult epoch k.caseId direction cold) b.ports
        trial := noteAcknowledgement k b.trial }
  | answers {b : Bridge} (socket epoch : ℕ) (k : Acknowledgement)
      (hkind : k.kind = .qualificationResult) (hagent : isAgent a = true)
      (hnone : b.trial.begun a = none) (hdurable : Durable options.trial k.toCaseFact b.trial)
      (hgeneration : k.generation = b.trial.generation) (hresult : k.record.result ≠ none) :
      Move a b { b with
        ports := send socket (.qualificationResult k.caseId epoch) b.ports
        trial := noteAcknowledgement k b.trial }

/-- The bridge when an actor is about to begin. -/
inductive Prepares : Actor → Bridge → Bridge → Prop
  | message (socket : ℕ) (message : RawMessage) (b : Bridge) :
      Prepares (.handler socket message) b (beginMessage socket message b)
  | call (call : ℕ) (b : Bridge) : Prepares (.operatorStart call) b
      { b with trial := forgetBegin (.operatorStart call) b.trial }

/-- Actors whose methods may wait at the same time. -/
def coexist : Actor → Actor → Prop
  | .handler socket _, .handler other _ => socket ≠ other
  | .operatorReset call, .operatorReset other => call ≠ other
  | .operatorStart call, .operatorStart other => call ≠ other
  | _, _ => True

/-- What others do. -/
def Others (a : Actor) (b b' : Bridge) : Prop :=
  ∃ q, coexist a q ∧ (Move options prompt q b b' ∨ Prepares q b b')

/-- Sections of an actor are moves, and others move in between. Where everybody is prompt, a
method that is about to call the session goes on only before the session is overdue. -/
def contract (a : Actor) : Contract Bridge Awaited Reply where
  guarantee := ReflTransGen (Move options prompt a)
  rely := ReflTransGen (Others options prompt a)
  admits b on reply := admits b on reply = true ∧
    (prompt → on = .sessionCall → overdue b.trial.session = false)
  held _ := True
  refl _ := .refl
  trans _ _ _ := .trans

/-- The contracts of all actors. -/
def discipline : Discipline Actor Bridge Awaited Reply where
  contract := contract options prompt
  coexist := coexist
  symm := by
    intro p q h
    cases p <;> cases q <;> first | trivial | exact Ne.symm h
  fits := fun p q hcoexist s t h =>
    ReflTransGen.mono (fun _ _ hmove => ⟨q, hcoexist, .inl hmove⟩) s t h
  stretch := fun _ _ _ _ => .trans
  still := fun _ _ => .refl
  keeps := fun _ _ _ _ _ => trivial

variable {options} {prompt} {a q : Actor} {b b' b'' : Bridge}

/-- An agent does not share its time with itself. -/
theorem ne_of_coexist (h : coexist a q) (hagent : isAgent a = true) : q ≠ a := by
  rintro rfl
  cases q with
  | handler => exact h rfl
  | operatorStart => exact h rfl
  | _ => cases hagent

/-- Two handlers that share their time are of two sockets. -/
theorem handles_of_coexist {socket : ℕ} {message : RawMessage}
    (h : coexist (.handler socket message) q) : handles q socket = false := by
  cases q with
  | handler other m => simpa [handles] using Ne.symm h
  | _ => rfl

/-- A bridge is in good order. -/
structure Standing (b : Bridge) : Prop where
  /-- The qualification is. -/
  poised : Poised b.trial
  /-- Sockets are among those there are. -/
  placed : Placed b.ports

/-- What a move does to the ports spares others. -/
theorem Move.spares (h : Move options prompt a b b') : Spares a b.ports b'.ports := by
  cases h with
  | ports h => exact h.spares
  | trial h => exact .refl a _
  | reads => exact .refl a _
  | plays => exact spares_broadcast _ _
  | results => exact spares_send _ _ _
  | answers => exact spares_send _ _ _

/-- What a move does to the qualification. -/
theorem Move.trial_cases (h : Move options prompt a b b') :
    b'.trial = b.trial ∨ TrialMove options.trial prompt a b.trial b'.trial := by
  cases h with
  | trial h => exact .inr h
  | results socket epoch direction cold k hkind hagent hfresh hdurable =>
    exact .inr (.note k hagent hdurable hfresh)
  | answers socket epoch k hkind hagent hnone hdurable =>
    exact .inr (.note k hagent hdurable (fresh_of_none hnone))
  | _ => exact .inl rfl

/-- What holds of every bridge is kept by every move. -/
theorem Move.standing (h : Move options prompt a b b') (hb : Standing b) : Standing b' := by
  refine ⟨?_, h.spares.placed hb.placed⟩
  rcases h.trial_cases with heq | hmove
  · rw [heq]
    exact hb.poised
  · exact hmove.poised hb.poised

/-- Forgetting what an actor has begun forgets nothing of the others. -/
theorem begun_forgetBegin (q r : Actor) (t : Trial) :
    (forgetBegin q t).begun r = if r = q then none else t.begun r :=
  Function.update_apply _ _ _ _

/-- A trial stays poised when an actor's beginning is forgotten. -/
theorem poised_forgetBegin {t : Trial} (q : Actor) (hp : Poised t) : Poised (forgetBegin q t) := by
  have hbegun : ∀ r tag, (forgetBegin q t).begun r = some tag → t.begun r = some tag := by
    intro r tag htag
    rw [begun_forgetBegin] at htag
    split at htag
    · cases htag
    · exact htag
  refine ⟨hp.wellFormed, fun r tag htag => hp.engaged r tag (hbegun r tag htag), ?_, hp.reports⟩
  intro r hr
  obtain ⟨tag, htag⟩ := Option.ne_none_iff_exists'.mp hr
  exact hp.agents r (by rw [hbegun r tag htag]; simp)

/-- A message that is taken concerns the handler of its socket alone. -/
theorem spares_takeMessage (socket : ℕ) (message : RawMessage) (p : Ports) :
    Spares (.handler socket message) p (takeMessage socket message p) := by
  have htaken : Spares (.handler socket message) p
      (modifySocket socket (fun k => { k with inbox := k.inbox.tail, underway := .nothing }) p) := by
    refine spares_modifyOne (fun _ => ⟨rfl, rfl, rfl⟩) (fun hk => ?_)
      (fun htail => .inr (fun hnil => htail ?_))
    · simp [handles] at hk
    · rw [hnil, List.tail_nil]
  unfold takeMessage
  dsimp only
  split
  · exact htaken
  · exact htaken.trans (spares_relayed (relayed_record _ _))

/-- The beginning of a method spares the others. -/
theorem Prepares.spares (h : Prepares q b b') : Spares q b.ports b'.ports := by
  cases h with
  | message socket message => exact spares_takeMessage socket message _
  | call call => exact .refl _ _

/-- The beginning of a method does no more to the trial than to forget an older beginning. -/
theorem Prepares.trial (h : Prepares q b b') : b'.trial = forgetBegin q b.trial := by
  cases h with
  | message socket message => rfl
  | call call => rfl

/-- The beginning of a method keeps what holds of every bridge. -/
theorem Prepares.standing (h : Prepares q b b') (hb : Standing b) : Standing b' := by
  refine ⟨?_, h.spares.placed hb.placed⟩
  rw [h.trial]
  exact poised_forgetBegin q hb.poised

section Others

variable (h : Others options prompt a b b') (hb : Standing b)

include h hb

/-- So does whatever the others do while a method waits. -/
theorem Others.standing : Standing b' := by
  obtain ⟨q, -, hmove | hprepares⟩ := h
  · exact hmove.standing hb
  · exact hprepares.standing hb

/-- Others do not begin for an actor. -/
theorem Others.begun : b'.trial.begun a = b.trial.begun a := by
  have hb' := h.standing hb
  by_cases hagent : isAgent a = true
  · obtain ⟨q, hcoexist, hmove | hprepares⟩ := h
    · rcases hmove.trial_cases with heq | hmove
      · rw [heq]
      · exact hmove.begun_of_ne (ne_of_coexist hcoexist hagent).symm
    · rw [hprepares.trial, begun_forgetBegin, if_neg (ne_of_coexist hcoexist hagent).symm]
  · rw [Bool.not_eq_true] at hagent
    rw [hb.poised.none_of_not_agent hagent, hb'.poised.none_of_not_agent hagent]

/-- Others leave the completion of an agent, unless the session is over. -/
theorem Others.holds (hagent : isAgent a = true) {completion : Completion}
    (hholds : Holds a completion b.trial ∨ Over b.trial.session) :
    Holds a completion b'.trial ∨ Over b'.trial.session := by
  obtain ⟨q, hcoexist, hmove | hprepares⟩ := h
  · rcases hmove.trial_cases with heq | hmove
    · rwa [heq]
    · rcases hholds with hholds | hover
      · exact hmove.holds (ne_of_coexist hcoexist hagent).symm hholds
      · exact .inr (hmove.change.over hb.poised.wellFormed hover)
  · rw [hprepares.trial]
    exact hholds

omit hb in
/-- Reports stay in the chain. -/
theorem Others.keeps {n : ℕ} {task : WriteTask} (htask : b.trial.writes[n]? = some task) :
    ∃ task', b'.trial.writes[n]? = some task' ∧ Keeps task task' := by
  obtain ⟨q, hcoexist, hmove | hprepares⟩ := h
  · rcases hmove.trial_cases with heq | hmove
    · rw [heq]
      exact ⟨task, htask, .refl task⟩
    · exact hmove.keeps htask
  · rw [hprepares.trial]
    exact ⟨task, htask, .refl task⟩

omit hb in
/-- Sockets stay while others act. -/
theorem Others.socketCount_le : b.ports.socketCount ≤ b'.ports.socketCount := by
  obtain ⟨q, -, hmove | hprepares⟩ := h
  · exact hmove.spares.count
  · exact hprepares.spares.count

end Others

/-- Others leave a handler in the middle of what it is in the middle of. -/
theorem Others.underway {socket : ℕ} {message : RawMessage}
    (h : Others options prompt (.handler socket message) b b') (hsocket : socket < b.ports.socketCount) :
    (b'.ports.sockets socket).underway = (b.ports.sockets socket).underway := by
  obtain ⟨q, hcoexist, hmove | hprepares⟩ := h
  · exact hmove.spares.underway socket hsocket (handles_of_coexist hcoexist)
  · exact hprepares.spares.underway socket hsocket (handles_of_coexist hcoexist)

/-- A section keeps what holds of every bridge, by induction on its moves. -/
theorem standing_of_moves (h : ReflTransGen (Move options prompt a) b b') (hb : Standing b) :
    Standing b' := by
  induction h with
  | refl => exact hb
  | tail _ hmove ih => exact hmove.standing ih

/-- A session that is over stays over during a section. -/
theorem over_of_moves (h : ReflTransGen (Move options prompt a) b b') (hb : Standing b)
    (hover : Over b.trial.session) : Over b'.trial.session := by
  induction h with
  | refl => exact hover
  | tail hmoves hmove ih =>
    rcases hmove.trial_cases with heq | htrial
    · rwa [heq]
    · exact htrial.change.over (standing_of_moves hmoves hb).poised.wellFormed ih

/-- A report keeps its number, its generation and its fact during a section. -/
theorem keeps_of_moves (h : ReflTransGen (Move options prompt a) b b') {n : ℕ} {task : WriteTask}
    (htask : b.trial.writes[n]? = some task) :
    ∃ task', b'.trial.writes[n]? = some task' ∧ Keeps task task' := by
  induction h with
  | refl => exact ⟨task, htask, .refl task⟩
  | tail _ hmove ih =>
    obtain ⟨task', htask', hkeeps⟩ := ih
    rcases hmove.trial_cases with heq | htrial
    · rw [heq]
      exact ⟨task', htask', hkeeps⟩
    · obtain ⟨task'', htask'', hkeeps'⟩ := htrial.keeps htask'
      exact ⟨task'', htask'', hkeeps.trans hkeeps'⟩

/-- Messages that were refused stay on record. -/
theorem refused_of_moves (h : ReflTransGen (Move options prompt a) b b') :
    b.ports.refused ⊆ b'.ports.refused := by
  induction h with
  | refl => exact fun _ hm => hm
  | tail _ hmove ih => exact fun _ hm => hmove.spares.refused (ih hm)

/-- Moves that leave what the actor is in the middle of, what it began and what it has to
acknowledge. -/
structure Calm (options : BridgeServerOptions) (prompt : Prop) (a : Actor) (b b' : Bridge) :
    Prop where
  /-- They are moves. -/
  moves : ReflTransGen (Move options prompt a) b b'
  /-- Nobody begins. -/
  begun : b'.trial.begun = b.trial.begun
  /-- A completion stays, unless the session is over. -/
  holds : Standing b → ∀ completion, Holds a completion b.trial →
    Holds a completion b'.trial ∨ Over b'.trial.session
  /-- Handlers are in the middle of the same. -/
  underway : ∀ k, (b'.ports.sockets k).underway = (b.ports.sockets k).underway
  /-- The same resets are under way. -/
  resets : b'.ports.resetsUnderway = b.ports.resetsUnderway
  /-- The same sockets are there. -/
  count : b'.ports.socketCount = b.ports.socketCount

theorem Calm.refl (options : BridgeServerOptions) (prompt : Prop) (a : Actor) (b : Bridge) :
    Calm options prompt a b b :=
  ⟨.refl, rfl, fun _ _ h => .inl h, fun _ => rfl, rfl, rfl⟩

theorem Calm.trans (h : Calm options prompt a b b') (h' : Calm options prompt a b' b'') :
    Calm options prompt a b b'' := by
  refine ⟨h.moves.trans h'.moves, h'.begun.trans h.begun, ?_,
    fun k => (h'.underway k).trans (h.underway k), h'.resets.trans h.resets,
    h'.count.trans h.count⟩
  intro hb completion hholds
  have hb' := standing_of_moves h.moves hb
  rcases h.holds hb completion hholds with hholds | hover
  · exact h'.holds hb' completion hholds
  · exact .inr (over_of_moves h'.moves hb' hover)

/-- The moves of the trial are moves of the bridge. -/
theorem moves_of_trial {t : Trial} (h : Moves options.trial prompt a b.trial t) :
    ReflTransGen (Move options prompt a) b { b with trial := t } := by
  induction h with
  | refl => exact .refl
  | tail _ hmove ih => exact ih.tail (.trial hmove)

/-- Calm moves of the trial are calm moves of the bridge. -/
theorem calm_of_trial {t : Trial} (h : Quietly options.trial prompt a b.trial t) :
    Calm options prompt a b { b with trial := t } :=
  ⟨moves_of_trial h.moves, h.begun, fun hb => h.holds hb.poised, fun _ => rfl, rfl, rfl⟩

/-- Reading the clock is calm. -/
theorem calm_reads (b : Bridge) : Calm options prompt a b { b with readings := b.readings + 1 } :=
  ⟨.single (.reads b), rfl, fun _ _ h => .inl h, fun _ => rfl, rfl, rfl⟩

/-- A message that is sent leaves every handler in the middle of the same. -/
theorem underway_send (socket k : ℕ) (message : Outbound) (p : Ports) :
    ((send socket message p).sockets k).underway = (p.sockets k).underway :=
  view_send Socket.underway (fun _ => rfl) socket p k

/-- So does a message to all. -/
theorem underway_broadcast (k : ℕ) (message : Outbound) (p : Ports) :
    ((broadcast message p).sockets k).underway = (p.sockets k).underway :=
  view_broadcast Socket.underway (fun _ => rfl) p k

/-- Telling all clients the news is calm. -/
theorem calm_broadcast {message : Outbound} (b : Bridge) (h : isNews message = true) :
    Calm options prompt a b { b with ports := broadcast message b.ports } :=
  ⟨.single (.ports (.broadcasts h)), rfl, fun _ _ h => .inl h,
    fun k => underway_broadcast k message b.ports, rfl, rfl⟩

/-- Telling one socket the news is calm. -/
theorem calm_tell (socket : ℕ) {message : Outbound} (b : Bridge) (h : isNews message = true) :
    Calm options prompt a b { b with ports := send socket message b.ports } :=
  ⟨.single (.ports (.tells socket h)), rfl, fun _ _ h => .inl h,
    fun k => underway_send socket k message b.ports, rfl, rfl⟩

/-- A contract under which sections are calm. -/
def calmContract (options : BridgeServerOptions) (prompt : Prop) (a : Actor) :
    Contract Bridge Awaited Reply :=
  { contract options prompt a with
    guarantee := Calm options prompt a
    refl := .refl options prompt a
    trans := fun _ _ _ => .trans }

/-- A fact neither calm sections of an actor nor others undo. -/
structure Kept (options : BridgeServerOptions) (prompt : Prop) (a : Actor) (R : Bridge → Prop) :
    Prop where
  /-- Calm sections keep it. -/
  calm : ∀ b b', Calm options prompt a b b' → Standing b → R b → R b'
  /-- Others keep it. -/
  others : ∀ b b', Others options prompt a b b' → Standing b → R b → R b'

/-- What others keep in one step they keep while a method waits. -/
theorem Kept.rely {R : Bridge → Prop} (hR : Kept options prompt a R)
    (h : ReflTransGen (Others options prompt a) b b') (hb : Standing b ∧ R b) : Standing b' ∧ R b' := by
  induction h with
  | refl => exact hb
  | tail _ hothers ih => exact ⟨hothers.standing ih.1, hR.others _ _ hothers ih.1 ih.2⟩

/-- Two things are kept if each of them is. -/
theorem Kept.and {R S : Bridge → Prop} (hR : Kept options prompt a R) (hS : Kept options prompt a S) :
    Kept options prompt a (fun b => R b ∧ S b) :=
  ⟨fun _ _ h hb hRS => ⟨hR.calm _ _ h hb hRS.1, hS.calm _ _ h hb hRS.2⟩,
    fun _ _ h hb hRS => ⟨hR.others _ _ h hb hRS.1, hS.others _ _ h hb hRS.2⟩⟩

/-- Nothing is asked of the others. -/
theorem kept_true : Kept options prompt a (fun _ => True) := ⟨fun _ _ _ _ h => h, fun _ _ _ _ h => h⟩

/-- When an actor began is kept while the others act. -/
theorem kept_begun (tag : Option (ℕ × ℕ)) :
    Kept options prompt a (fun b => b.trial.begun a = tag) :=
  ⟨fun _ _ h _ htag => h.begun ▸ htag, fun _ _ h hb htag => (h.begun hb).trans htag⟩

/-- An actor that has begun has begun while the others act. -/
theorem kept_begun_ne : Kept options prompt a (fun b => b.trial.begun a ≠ none) :=
  ⟨fun _ _ h _ hbegun => by rw [h.begun]; exact hbegun,
    fun _ _ h hb hbegun => by rw [h.begun hb]; exact hbegun⟩

/-- The completion of an agent is to be acknowledged, or the session is over. -/
theorem kept_holds (hagent : isAgent a = true) (completion : Completion) :
    Kept options prompt a (fun b => Holds a completion b.trial ∨ Over b.trial.session) := by
  refine ⟨fun b b' h hb hholds => ?_, fun _ _ h hb hholds => h.holds hb hagent hholds⟩
  rcases hholds with hholds | hover
  · exact h.holds hb completion hholds
  · exact .inr (over_of_moves h.moves hb hover)

/-- What a handler is in the middle of. -/
theorem kept_underway (socket : ℕ) (message : RawMessage) (underway : Underway) :
    Kept options prompt (.handler socket message) (fun b => socket < b.ports.socketCount ∧
      (b.ports.sockets socket).underway = underway) := by
  refine ⟨fun b b' h hb hunder => ?_, fun b b' h hb hunder => ?_⟩
  · exact ⟨h.count ▸ hunder.1, (h.underway socket).trans hunder.2⟩
  · exact ⟨hunder.1.trans_le h.socketCount_le, (h.underway hunder.1).trans hunder.2⟩

/-- A message of a socket was refused. -/
theorem kept_refused (socket : ℕ) :
    Kept options prompt a (fun b => ∃ m ∈ b.ports.refused, m.socket = socket) := by
  refine ⟨fun b b' h hb ⟨m, hm, hsocket⟩ => ⟨m, refused_of_moves h.moves hm, hsocket⟩, ?_⟩
  rintro b b' ⟨q, -, hmove | hprepares⟩ hb ⟨m, hm, hsocket⟩
  · exact ⟨m, hmove.spares.refused hm, hsocket⟩
  · exact ⟨m, hprepares.spares.refused hm, hsocket⟩

/-- What every change of a session keeps. -/
theorem kept_session {P : CyrinxQualificationSession → Prop}
    (h : ∀ c c', WellFormed c → Change c c' → P c → P c') :
    Kept options prompt a (fun b => P b.trial.session) := by
  have hmove : ∀ {q : Actor} {b b' : Bridge}, Move options prompt q b b' → Standing b →
      P b.trial.session → P b'.trial.session := by
    intro q b b' hmove hb hP
    rcases hmove.trial_cases with heq | htrial
    · rwa [heq]
    · exact h _ _ hb.poised.wellFormed htrial.change hP
  refine ⟨fun b b' hcalm hb hP => ?_, fun b b' hothers hb hP => ?_⟩
  · have hmoves := hcalm.moves
    clear hcalm
    induction hmoves with
    | refl => exact hP
    | tail hmoves hlast ih => exact hmove hlast (standing_of_moves hmoves hb) ih
  · obtain ⟨q, -, hlast | hprepares⟩ := hothers
    · exact hmove hlast hb hP
    · rw [hprepares.trial]
      exact hP

/-- With authority to report, a report that shows a fact, built since its mark in its generation or
a later one, has settled without failing. -/
def SettledSince (options : TrialOptions) (fact : CaseFact) (t : Trial) : Prop :=
  options.config ≠ none → options.reportAuthority ≠ none →
    ∃ n task, t.writes[n]? = some task ∧ fact.mark ≤ n ∧ fact.generation ≤ task.builtIn ∧
      Shows task.report fact ∧ (task.status = .written ∨ task.status = .skipped)

/-- A fact that has settled stays so, since no report forgets what it is about. -/
theorem settledSince_of_keeps {options : TrialOptions} {fact : CaseFact} {t t' : Trial}
    (h : SettledSince options fact t)
    (hkeeps : ∀ (n : ℕ) (task : WriteTask), t.writes[n]? = some task →
      ∃ task', t'.writes[n]? = some task' ∧ Keeps task task') :
    SettledSince options fact t' := by
  intro hconfig hauthority
  obtain ⟨n, task, htask, hmark, hgeneration, hshows, hstatus⟩ := h hconfig hauthority
  obtain ⟨task', htask', hbuilt, -, -, hreport, hsettled⟩ := hkeeps n task htask
  have hsame := hsettled (by rcases hstatus with h | h <;> rw [h] <;> rfl)
  exact ⟨n, task', htask', hmark, hbuilt ▸ hgeneration, hreport ▸ hshows, hsame ▸ hstatus⟩

/-- What has settled is not undone by others. -/
theorem kept_settledSince (fact : CaseFact) :
    Kept options prompt a (fun b => SettledSince options.trial fact b.trial) :=
  ⟨fun _ _ h _ hsettled => settledSince_of_keeps hsettled (fun _ _ => keeps_of_moves h.moves),
    fun _ _ h _ hsettled => settledSince_of_keeps hsettled (fun _ _ => h.keeps)⟩

/-- A report of the current generation that settled without failing is written. -/
theorem durable_of_settledSince {options : TrialOptions} {fact : CaseFact} {t : Trial}
    (h : SettledSince options fact t) (hp : Poised t)
    (hgeneration : fact.generation = t.generation) : Durable options fact t := by
  intro hconfig hauthority
  obtain ⟨n, task, htask, hmark, hbuilt, hshows, hstatus⟩ := h hconfig hauthority
  obtain ⟨-, hle, hskipped⟩ := hp.reports n task htask
  have heq : task.builtIn = fact.generation := by omega
  refine ⟨n, task, htask, hmark, heq, hshows, ?_, hgeneration⟩
  rcases hstatus with hwritten | hskip
  · exact hwritten
  · have := hskipped hskip
    omega

end Fipwave.BridgeMoves
