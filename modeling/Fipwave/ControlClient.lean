import Fipwave.ControlResponse
import Fipwave.TransitionRun

/-!
# The client of the control daemon

Requests wait in a queue. When none is in flight the next one opens a stream
of its own, writes its command and is settled by the response, a timer, an
abort signal or an error; then the next one has its turn. A request whose
stream cannot be opened is settled at once, and so are all that wait when the
client is closed. The client listens to the abort signal of a request only
once its stream is open, and does not ask whether the signal fired before.
-/

namespace Fipwave.ControlClient

open ByteWords TransitionRun IsolationAttestation ControlResponse

/-- The functions of the platform; `decode` is the strict UTF-8 decoder and `JSON.parse`. -/
structure ControlPlatform where
  /-- `JSON.stringify`. -/
  stringify : Json → Bytes
  /-- The value of a text. -/
  decode : Bytes → Option Json

/-- What a request asks. -/
inductive Command where
  | query (kind : FipsControlQuery)
  | connectPeer (peer : FipsConnectRequest)
  deriving DecidableEq, Repr

/-- What a request resolves with. -/
inductive ControlValue where
  | data (value : FipsControlData)
  | peer (value : FipsConnectRequest)

/-- How a request is settled. -/
abbrev Outcome := Except ControlError ControlValue

/-- Largest command. -/
def maxRequestBytes : ℕ := 512

/-- `COMMANDS`. -/
def commandText : FipsControlQuery → Bytes
  | .peers => [0x73, 0x68, 0x6f, 0x77, 0x5f, 0x70, 0x65, 0x65, 0x72, 0x73]
  | .links => [0x73, 0x68, 0x6f, 0x77, 0x5f, 0x6c, 0x69, 0x6e, 0x6b, 0x73]
  | .transports =>
    [0x73, 0x68, 0x6f, 0x77, 0x5f, 0x74, 0x72, 0x61, 0x6e, 0x73, 0x70, 0x6f, 0x72, 0x74, 0x73]
  | .sessions =>
    [0x73, 0x68, 0x6f, 0x77, 0x5f, 0x73, 0x65, 0x73, 0x73, 0x69, 0x6f, 0x6e, 0x73]

/-- `validConnectRequest`. -/
def validConnectRequest (peer : FipsConnectRequest) : Bool :=
  isPublicKey peer.npub && peer.npub.length ≤ 128 &&
    (peer.address = [0x73, 0x6f, 0x75, 0x6e, 0x64, 0x2d, 0x61] ||
      peer.address = [0x73, 0x6f, 0x75, 0x6e, 0x64, 0x2d, 0x62]) &&
    peer.transport = [0x73, 0x6f, 0x75, 0x6e, 0x64]

/-- The check of a call before its request. -/
def validCommand : Command → Bool
  | .query _ => true
  | .connectPeer peer => validConnectRequest peer

/-- The line a request writes. -/
def encodedRequest (platform : ControlPlatform) : Command → Bytes
  | .query kind =>
    platform.stringify (.object [("command", .text (commandText kind))]) ++ [newline]
  | .connectPeer peer =>
    platform.stringify (.object [("command", .text [0x63, 0x6f, 0x6e, 0x6e, 0x65, 0x63, 0x74]),
      ("params", .object [("npub", .text peer.npub), ("address", .text peer.address),
        ("transport", .text peer.transport)])]) ++ [newline]

/-- The parser of a response. -/
def parseFor (platform : ControlPlatform) : Command → Bytes → Outcome
  | .query kind, bytes => (parseResponse platform.decode kind bytes).map .data
  | .connectPeer peer, bytes => (parseConnectResponse platform.decode peer bytes).map .peer

/-- A request. -/
structure Request where
  /-- Its number, in the order of submission. -/
  id : ℕ
  /-- What it asks. -/
  command : Command
  /-- Its abort signal; requests may share one. -/
  signal : Option ℕ
  /-- Whether `createStream` returns when its turn comes, rather than throwing. -/
  connects : Bool
  deriving DecidableEq, Repr

/-- A request whose stream was opened and that is not settled. -/
structure InFlight where
  /-- The request. -/
  request : Request
  /-- What was received. -/
  reply : Reply := {}
  /-- The timer of the connection is armed. -/
  connectTimer : Bool := true
  deriving DecidableEq, Repr

/-- What happened; nothing in the client reads it. -/
inductive Entry where
  | submitted (request : Request)
  | fired (signal : ℕ)
  | opened (request : Request)
  | wrote (request : Request) (bytes : Bytes)
  | received (id : ℕ) (chunk : Bytes)
  | settled (request : Request) (outcome : Outcome)
  | closed

/-- The variables of a client, the signals that have fired and what happened. -/
structure Client where
  /-- It was closed. -/
  isClosed : Bool := false
  /-- A request runs. -/
  running : Bool := false
  /-- Requests that wait for their turn. -/
  queue : List Request := []
  /-- Requests whose streams are open, each with the variables of its `run`. -/
  inFlight : List InFlight := []
  /-- Signals that have fired. -/
  fired : List ℕ := []
  /-- Number of submissions. -/
  submissions : ℕ := 0
  /-- What happened, oldest first. -/
  log : List Entry := []

/-- The timers of a request. -/
inductive ControlTimer where
  | connect | read | total
  deriving DecidableEq, Repr

/-- The code a timer fails with. -/
def timerCode : ControlTimer → ControlError
  | .connect => .connectTimeout
  | .read => .readTimeout
  | .total => .totalTimeout

/-- What happens to a client. -/
inductive ControlEvent where
  /-- A call of `query` or `connectPeer`. -/
  | submit (command : Command) (signal : Option ℕ) (connects : Bool)
  /-- A signal fires. -/
  | abort (signal : ℕ)
  /-- The stream of a request connects. -/
  | connected (id : ℕ)
  /-- A chunk arrives on it. -/
  | data (id : ℕ) (chunk : Bytes)
  /-- It ends. -/
  | ended (id : ℕ)
  /-- It fails. -/
  | errored (id : ℕ)
  /-- A timer of a request fires. -/
  | timer (id : ℕ) (which : ControlTimer)
  /-- The client is closed. -/
  | close
  deriving DecidableEq, Repr

section Model

variable (platform : ControlPlatform)

/-- Settle a request without a stream. -/
def reject (request : Request) (code : ControlError) (s : Client) : Client :=
  { s with log := s.log ++ [.settled request (.error code)] }

/-- Open the stream of a request and write its command. -/
def openStream (request : Request) (s : Client) : Client :=
  { s with
    running := true
    inFlight := s.inFlight ++ [{ request }]
    log := s.log ++ [.opened request, .wrote request (encodedRequest platform request.command)] }

/-- `drain` on a queue: each `run` that settles its request at once drains again. -/
def drainQueue : List Request → Client → Client
  | [], s => { s with queue := [] }
  | request :: rest, s =>
    if s.running then { s with queue := request :: rest }
    else if s.isClosed then drainQueue rest (reject request .clientClosed s)
    else if (encodedRequest platform request.command).length > maxRequestBytes then
      drainQueue rest (reject request .queryInvalid s)
    else if !request.connects then drainQueue rest (reject request .transportError s)
    else openStream platform request { s with queue := rest }

/-- `drain`. -/
def drain (s : Client) : Client := drainQueue platform s.queue s

/-- A call of `query` or `connectPeer`. -/
def submit (command : Command) (signal : Option ℕ) (connects : Bool) (s : Client) : Client :=
  let request : Request := ⟨s.submissions, command, signal, connects⟩
  let s := { s with
    submissions := s.submissions + 1
    log := s.log ++ [.submitted request] }
  if !validCommand command then reject request .queryInvalid s
  else if s.isClosed then reject request .clientClosed s
  else drain platform { s with queue := s.queue ++ [request] }

/-- `finish`, of a request in flight. -/
def finish (flight : InFlight) (outcome : Outcome) (s : Client) : Client :=
  drain platform { s with
    running := false
    inFlight := s.inFlight.filter (fun other => other.request ≠ flight.request)
    log := s.log ++ [.settled flight.request outcome] }

/-- `fail`, of a request in flight. -/
def fail (flight : InFlight) (code : ControlError) (s : Client) : Client :=
  finish platform flight (.error (if s.isClosed then .clientClosed else code)) s

/-- The request in flight with a number: only its listeners and timers are left. -/
def flightOf (s : Client) (id : ℕ) : Option InFlight :=
  s.inFlight.find? (fun flight => flight.request.id = id)

/-- Change the variables of a request in flight. -/
def update (flight changed : InFlight) (s : Client) : Client :=
  { s with inFlight := s.inFlight.map (fun other => if other = flight then changed else other) }

/-- `onData`. -/
def receive (flight : InFlight) (chunk : Bytes) (s : Client) : Client :=
  let s := { s with log := s.log ++ [.received flight.request.id chunk] }
  match onData flight.reply chunk with
  | .error code => fail platform flight code s
  | .ok reply => update flight { flight with reply := reply } s

/-- `onEnd`. -/
def endOf (flight : InFlight) (s : Client) : Client :=
  if !flight.reply.sawNewline then fail platform flight .protocolInvalid s
  else finish platform flight (parseFor platform flight.request.command (line flight.reply.bytes)) s

/-- A signal fires, once: the request in flight that listens to it is aborted. -/
def abort (signal : ℕ) (s : Client) : Client :=
  if signal ∈ s.fired then s
  else
    let s := { s with fired := s.fired ++ [signal], log := s.log ++ [.fired signal] }
    match s.inFlight.find? (fun flight => flight.request.signal = some signal) with
    | none => s
    | some flight => fail platform flight .aborted s

/-- `close`: each `run` that is left finds the client closed. -/
def close (s : Client) : Client :=
  if s.isClosed then s
  else s.queue.foldl (fun s request => reject request .clientClosed s)
    { s with isClosed := true, queue := [], log := s.log ++ [.closed] }

/-- What a timer does that fires; the timer of the connection is cleared when it connects. -/
def fireTimer (flight : InFlight) (which : ControlTimer) (s : Client) : Client :=
  if which = .connect ∧ !flight.connectTimer then s else fail platform flight (timerCode which) s

/-- Tell the request in flight with a number. -/
def tell (id : ℕ) (act : InFlight → Client → Client) (s : Client) : Client :=
  match flightOf s id with
  | none => s
  | some flight => act flight s

/-- One event. -/
def step (s : Client) : ControlEvent → Client
  | .submit command signal connects => submit platform command signal connects s
  | .abort signal => abort platform signal s
  | .connected id => tell id (fun flight => update flight { flight with connectTimer := false }) s
  | .data id chunk => tell id (fun flight => receive platform flight chunk) s
  | .ended id => tell id (endOf platform) s
  | .errored id => tell id (fun flight => fail platform flight .transportError) s
  | .timer id which => tell id (fun flight => fireTimer platform flight which) s
  | .close => close s

/-- The client after a list of events. -/
def runClient (events : List ControlEvent) : Client := run (step platform) {} events

end Model

section Rules

variable (platform : ControlPlatform)

/-- The chunks received on the stream of a request. -/
def receivedBy (id : ℕ) (log : List Entry) : List Bytes :=
  log.filterMap (fun entry =>
    match entry with
    | .received other chunk => if other = id then some chunk else none
    | _ => none)

/-- The outcome is read off a response: a value, or the error the daemon answered with. -/
def fromDaemon : Outcome → Bool
  | .ok _ => true
  | .error .daemonError => true
  | .error _ => false

/-- What the rules of a client say of an entry, given what happened before. Numbers follow the order
of submission. A stream is opened for a submitted request, in the order of the numbers, when every
other request that had a stream is settled, and not after the client was closed; the command is
written on it. A request is settled once, and what it takes from a response, be it a value or an
error of the daemon, is in the response that arrived on its own stream. -/
def Allowed (front : List Entry) : Entry → Prop
  | .submitted request => ∀ other, .submitted other ∈ front → other.id < request.id
  | .opened request => .submitted request ∈ front ∧ .closed ∉ front ∧
      ∀ other, .opened other ∈ front →
        other.id < request.id ∧ ∃ outcome, .settled other outcome ∈ front
  | .wrote request bytes => .opened request ∈ front ∧ .closed ∉ front ∧
      bytes = encodedRequest platform request.command
  | .settled request outcome => .submitted request ∈ front ∧
      (∀ other earlier, .settled other earlier ∈ front → other.id ≠ request.id) ∧
      (fromDaemon outcome = true →
        settle (parseFor platform request.command) (receivedBy request.id front) = outcome)
  | .fired _ | .received _ _ | .closed => True

/-- No stream is opened for a request whose signal has fired, and nothing is written on it. -/
def Unfired (front : List Entry) : Entry → Prop
  | .opened request | .wrote request _ =>
    ∀ signal, request.signal = some signal → .fired signal ∉ front
  | _ => True

/-- Every entry of a log meets a rule on what was logged before it. -/
def Chronicle {α : Type} (rule : List α → α → Prop) (log : List α) : Prop :=
  ∀ front entry back, log = front ++ entry :: back → rule front entry

/-- What is promised of a client. -/
structure Serialized (s : Client) : Prop where
  /-- At most one stream is open. -/
  single : s.inFlight.length ≤ 1
  /-- Every entry is allowed. -/
  allowed : Chronicle (Allowed platform) s.log
  /-- No aborted request has its turn. -/
  unfired : Chronicle Unfired s.log

/-- A request whose turn opens its stream. -/
def served (request : Request) : Bool :=
  (encodedRequest platform request.command).length ≤ maxRequestBytes && request.connects

/-- The event leaves no request in flight: it settles the one there is, or finds none and submits
another. -/
def frees (s : Client) : ControlEvent → Bool
  | .submit command _ _ => validCommand command && !s.running
  | .abort signal => signal ∉ s.fired &&
      (s.inFlight.find? (fun flight => flight.request.signal = some signal)).isSome
  | .data id chunk =>
    match flightOf s id with
    | none => false
    | some flight => !(onData flight.reply chunk).isOk
  | .ended id | .errored id => (flightOf s id).isSome
  | .timer id which =>
    match flightOf s id with
    | none => false
    | some flight => !(which = .connect ∧ !flight.connectTimer)
  | .connected _ | .close => false

/-- The requests that wait when the event drains the queue. -/
def waitingAt (s : Client) : ControlEvent → List Request
  | .submit command signal connects => s.queue ++ [⟨s.submissions, command, signal, connects⟩]
  | _ => s.queue

/-- The request whose turn comes with an event. -/
def turn (s : Client) (event : ControlEvent) : Option Request :=
  if s.isClosed || !frees s event then none else (waitingAt s event).find? (served platform)

/-- The turn of a request comes, and its signal has fired or fires. -/
def FiredTurn (s : Client) (event : ControlEvent) : Prop :=
  ∃ request signal, turn platform s event = some request ∧ request.signal = some signal ∧
    (signal ∈ s.fired ∨ event = .abort signal)

end Rules

end Fipwave.ControlClient
