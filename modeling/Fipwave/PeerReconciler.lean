import Fipwave.ControlResponse
import Fipwave.TransitionRun

/-!
# Reconciliation of the FIPS peer

One role asks its daemon again and again whether the peer is connected and has
it connect if not. A timer begins a pass; the pass asks for peers, transports
and links, one after another, and may call for a connection; what it returns
decides when the timer is set again. The callbacks of a settled pass run before
any timer does. An observer of the calls is the specification: passes never
overlap, the timer is set exactly while no pass is under way, a connection is
called for only on the evidence of its own pass, and nothing follows a close.
-/

namespace Fipwave.PeerReconciler

open ByteWords ControlResponse TransitionRun

section Model

/-- What a pass returns. -/
inductive FipsPeerReconcileResult where
  | waitingForAcoustic | connected | connecting | connectInitiated
  deriving DecidableEq, Repr

/-- Options of a reconciler. -/
structure FipsPeerReconcileOptions where
  /-- The peer. -/
  peer : FipsConnectRequest
  /-- Wait after a pass. -/
  pollDelayMs : ℕ := 250
  /-- Wait after a connection was called for. -/
  retryDelayMs : ℕ := 15000

/-- Where a pass is. -/
inductive Pass where
  /-- It asked for the peers. -/
  | askingPeers
  /-- It asked for the transports. -/
  | askingTransports
  /-- It asked for the links; the transports were answered. -/
  | askingLinks (transportData : FipsControlData)
  /-- It called for a connection. -/
  | connecting
  /-- It returned, or threw; its callbacks did not run yet. -/
  | returned (result : Option FipsPeerReconcileResult)
  /-- The timer is set; the pass is still noted as under way. -/
  | scheduled

/-- What an observer of the control client and the clock sees. -/
inductive Entry where
  /-- A pass begins; readiness was read, or reading it threw. -/
  | began (at_ : ℕ) (ready : Option Bool)
  /-- A query. -/
  | asked (query : FipsControlQuery)
  /-- Its answer, or nothing where it was rejected. -/
  | answered (reply : Option FipsControlData)
  /-- A call for a connection. -/
  | called (at_ : ℕ)
  /-- How it ended. -/
  | initiated (succeeded : Bool)
  /-- A pass ends. -/
  | ended (at_ : ℕ) (result : Option FipsPeerReconcileResult)
  /-- The reconciler is closed. -/
  | closing
  /-- Its close resolves. -/
  | closed

/-- A reconciler. -/
structure Reconciler where
  /-- It was closed. -/
  stopped : Bool := false
  /-- When the timer is due, while it is set. -/
  timer : Option ℕ := some 0
  /-- The pass under way. -/
  inFlight : Option Pass := none
  /-- The close resolved. -/
  resolved : Bool := false
  /-- The clock. -/
  clock : ℕ := 0
  /-- What happened, the newest last. -/
  log : List Entry := []

/-- The text connected. -/
def connectedText : Bytes := [0x63, 0x6f, 0x6e, 0x6e, 0x65, 0x63, 0x74, 0x65, 0x64]
/-- The text active. -/
def activeText : Bytes := [0x61, 0x63, 0x74, 0x69, 0x76, 0x65]
/-- The text sound. -/
def soundText : Bytes := [0x73, 0x6f, 0x75, 0x6e, 0x64]
/-- The text up. -/
def upText : Bytes := [0x75, 0x70]

/-- The peer is connected by sound. -/
def peerConnected (peer : FipsConnectRequest) (peers : List FipsPeer) : Bool :=
  peers.any (fun row => row.npub = peer.npub && row.connectivity = connectedText &&
    row.transportType = soundText)

/-- A sound transport that can carry a link. -/
def soundTransport (transport : FipsTransport) : Bool :=
  transport.type = soundText && (transport.state = upText || transport.state = activeText)

/-- A link on a sound transport is there or on its way. -/
def linkUnderWay (transports : List FipsTransport) (links : List FipsLink) : Bool :=
  links.any (fun link =>
    transports.any (fun row => soundTransport row && row.transportId = link.transportId) &&
      (link.state = connectedText || link.state = activeText))

/-- Callbacks of a settled pass wait to run; no timer fires and no time passes before they did. -/
def reacting : Option Pass → Bool
  | some (.returned _) => true
  | some .scheduled => true
  | _ => false

variable (options : FipsPeerReconcileOptions)

/-- Set the timer. -/
def schedule (delayMs : ℕ) (r : Reconciler) : Reconciler :=
  if r.stopped then r else { r with timer := some (r.clock + delayMs) }

/-- A pass begins; whether the acoustic session is ready, or nothing where reading it throws. -/
def begin (ready : Option Bool) (r : Reconciler) : Reconciler :=
  let began : Reconciler := { r with log := r.log ++ [.began r.clock ready] }
  match ready with
  | some true =>
    { began with inFlight := some .askingPeers, log := began.log ++ [.asked .peers] }
  | some false => { began with inFlight := some (.returned (some .waitingForAcoustic)) }
  | none => { began with inFlight := some (.returned none) }

/-- The timer fires. -/
def run (ready : Option Bool) (r : Reconciler) : Reconciler :=
  if r.stopped ∨ r.inFlight.isSome then r else begin ready r

/-- The peers are answered. -/
def peersAnswered (reply : Option FipsControlData) (r : Reconciler) : Reconciler :=
  match reply with
  | some (.peers rows) =>
    if peerConnected options.peer rows then
      { r with inFlight := some (.returned (some .connected)) }
    else { r with inFlight := some .askingTransports, log := r.log ++ [.asked .transports] }
  | _ => { r with inFlight := some (.returned none) }

/-- The transports are answered. -/
def transportsAnswered (reply : Option FipsControlData) (r : Reconciler) : Reconciler :=
  match reply with
  | some transportData =>
    { r with inFlight := some (.askingLinks transportData), log := r.log ++ [.asked .links] }
  | none => { r with inFlight := some (.returned none) }

/-- The links are answered. -/
def linksAnswered (transportData : FipsControlData) (reply : Option FipsControlData)
    (r : Reconciler) : Reconciler :=
  match transportData, reply with
  | .transports transports, some (.links links) =>
    if linkUnderWay transports links then
      { r with inFlight := some (.returned (some .connecting)) }
    else { r with inFlight := some .connecting, log := r.log ++ [.called r.clock] }
  | _, _ => { r with inFlight := some (.returned none) }

/-- Wait after a pass. -/
def delayAfter (result : Option FipsPeerReconcileResult) : ℕ :=
  if result = some .connectInitiated then options.retryDelayMs else options.pollDelayMs

/-- What can happen. -/
inductive Action where
  /-- Time passes. -/
  | tick (ms : ℕ)
  /-- The timer fires. -/
  | fire (ready : Option Bool)
  /-- A query is answered or rejected. -/
  | answer (reply : Option FipsControlData)
  /-- The call for a connection ends. -/
  | connectDone (succeeded : Bool)
  /-- The callback of a settled pass sets the timer. -/
  | react
  /-- The pass is forgotten. -/
  | forget
  /-- The owner closes the reconciler. -/
  | close
  /-- The close resolves. -/
  | closeDone

/-- What happens next; an action that does not apply does nothing. -/
def step (r : Reconciler) (action : Action) : Reconciler :=
  match action, r.inFlight with
  | .tick ms, _ => if reacting r.inFlight then r else { r with clock := r.clock + ms }
  | .fire ready, _ =>
    if reacting r.inFlight ∨ r.timer.all (r.clock < ·) then r
    else run ready { r with timer := none }
  | .answer reply, some .askingPeers =>
    peersAnswered options reply { r with log := r.log ++ [.answered reply] }
  | .answer reply, some .askingTransports =>
    transportsAnswered reply { r with log := r.log ++ [.answered reply] }
  | .answer reply, some (.askingLinks transportData) =>
    linksAnswered transportData reply { r with log := r.log ++ [.answered reply] }
  | .connectDone succeeded, some .connecting =>
    { r with
      inFlight := some (.returned (if succeeded then some .connectInitiated else none))
      log := r.log ++ [.initiated succeeded] }
  | .react, some (.returned result) =>
    schedule (delayAfter options result) { r with
      inFlight := some .scheduled
      log := r.log ++ [.ended r.clock result] }
  | .forget, some .scheduled => { r with inFlight := none }
  | .close, _ =>
    if r.stopped then r
    else { r with stopped := true, timer := none, log := r.log ++ [.closing] }
  | .closeDone, none =>
    if r.stopped ∧ r.resolved = false then
      { r with resolved := true, log := r.log ++ [.closed] }
    else r
  | _, _ => r

/-- A reconciler after a list of actions. -/
def after (actions : List Action) : Reconciler := TransitionRun.run (step options) {} actions

end Model

section Observer

variable (options : FipsPeerReconcileOptions)

/-- What the observer knows. -/
structure Watch where
  /-- What happened in the pass under way. -/
  pass : List Entry := []
  /-- When the next pass may begin. -/
  earliest : ℕ := 0
  /-- Last time seen. -/
  now : ℕ := 0
  /-- The reconciler was closed. -/
  closing : Bool := false
  /-- The close resolved. -/
  closed : Bool := false

/-- The observer sees something happen. -/
def observe (w : Watch) : Entry → Watch
  | .began at_ ready => { w with pass := [.began at_ ready], now := at_ }
  | .called at_ => { w with pass := w.pass ++ [.called at_], now := at_ }
  | .ended at_ result =>
    { w with pass := [], earliest := at_ + delayAfter options result, now := at_ }
  | .closing => { w with closing := true }
  | .closed => { w with closed := true }
  | entry => { w with pass := w.pass ++ [entry] }

/-- The evidence on which a pass may call for a connection: the acoustic session was ready, no
peer was connected and no link was on its way. -/
def Evidence (pass : List Entry) : Prop :=
  ∃ at_ peers transports links,
    pass = [.began at_ (some true), .asked .peers, .answered (some (.peers peers)),
      .asked .transports, .answered (some (.transports transports)), .asked .links,
      .answered (some (.links links))] ∧
    peerConnected options.peer peers = false ∧ linkUnderWay transports links = false

/-- What may happen next. -/
def Allowed (w : Watch) : Entry → Prop
  | .began at_ _ => w.pass = [] ∧ w.closing = false ∧ w.closed = false ∧ w.earliest ≤ at_ ∧
      w.now ≤ at_
  | .called at_ => w.closed = false ∧ Evidence options w.pass ∧ w.now ≤ at_
  | .ended at_ _ => w.closed = false ∧ w.pass ≠ [] ∧ w.now ≤ at_
  | .closing => w.closing = false ∧ w.closed = false
  | .closed => w.closing = true ∧ w.pass = [] ∧ w.closed = false
  | _ => w.closed = false ∧ w.pass ≠ []

/-- What the observer of a log knows. -/
def watchOf (log : List Entry) : Watch := TransitionRun.run (observe options) {} log

/-- Everything in a log was allowed when it happened. -/
def Lawful (log : List Entry) : Prop := Along (observe options) (Allowed options) {} log

/-- A log is lawful when all but its last entry is, and the last one was allowed then. -/
theorem lawful_snoc {log : List Entry} {entry : Entry} :
    Lawful options (log ++ [entry]) ↔
      Lawful options log ∧ Allowed options (watchOf options log) entry := by
  simp only [Lawful, along_append, Along, and_true]
  rfl

/-- What happened in a pass, by where it is. -/
def Shows (pass : List Entry) : Option Pass → Prop
  | none => pass = []
  | some .scheduled => pass = []
  | some .askingPeers => ∃ at_, pass = [.began at_ (some true), .asked .peers]
  | some .askingTransports => ∃ at_ peers,
      pass = [.began at_ (some true), .asked .peers, .answered (some (.peers peers)),
        .asked .transports] ∧ peerConnected options.peer peers = false
  | some (.askingLinks transportData) => ∃ at_ peers,
      pass = [.began at_ (some true), .asked .peers, .answered (some (.peers peers)),
        .asked .transports, .answered (some transportData), .asked .links] ∧
      peerConnected options.peer peers = false
  | some .connecting => pass ≠ []
  | some (.returned _) => pass ≠ []

/-- The pass is over, or there is none. -/
def idle : Option Pass → Bool
  | none => true
  | some .scheduled => true
  | _ => false

/-- The reconciler is where the observer thinks it is. -/
structure Followed (r : Reconciler) : Prop where
  /-- The log was allowed. -/
  lawful : Lawful options r.log
  /-- The pass under way. -/
  pass : Shows options (watchOf options r.log).pass r.inFlight
  /-- The timer is set while no pass is under way, and only then. -/
  timer : r.timer.isSome = true ↔ r.stopped = false ∧ idle r.inFlight = true
  /-- It is not due too early. -/
  due : ∀ due, r.timer = some due → (watchOf options r.log).earliest ≤ due
  /-- Time passes. -/
  now : (watchOf options r.log).now ≤ r.clock
  /-- It was closed. -/
  closing : (watchOf options r.log).closing = r.stopped
  /-- The close resolved. -/
  closed : (watchOf options r.log).closed = r.resolved
  /-- A close resolves once there is no pass. -/
  resolved : r.resolved = true → r.stopped = true ∧ r.inFlight = none

variable {options : FipsPeerReconcileOptions} {r : Reconciler}

/-- The loop is not yet resolved while a pass is under way. -/
theorem Followed.open (h : Followed options r) (hbusy : idle r.inFlight = false) :
    r.resolved = false := by
  by_contra hresolved
  have hnone := (h.resolved (Bool.eq_true_of_not_eq_false hresolved)).2
  rw [hnone] at hbusy
  exact Bool.false_ne_true hbusy.symm

end Observer

/-- Options of a bench. -/
def benchOptions : FipsPeerReconcileOptions where
  peer := ⟨[0x6e], [0x73], soundText⟩

end Fipwave.PeerReconciler
