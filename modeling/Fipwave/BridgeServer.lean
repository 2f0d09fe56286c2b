import Fipwave.BridgeMethods

/-!
# The bridge as a system

Messages of a browser are received at once and handled one after another;
a RESET or an ERROR takes effect on native work already when it is received.
Several handlers, calls of the operator, timers and the chain of writes go on
side by side, and between two steps of any of them the others may act.
-/

namespace Fipwave.BridgeServer

open ByteWords FwavProtocol QualificationSession BridgePorts BridgeReport BridgeTrial
  BridgeMethods AsyncMethod

variable (options : BridgeServerOptions)

/-- A reset up to the writing of its report: what to wait for. -/
def beginReset (actor : Actor) (alreadyPreempted : Bool) : BridgeM Awaited := do
  if (← current).ports.epoch ≥ maxEpoch then raise (.input "epoch_exhausted")
  else
    let nowMs ← clock options
    onPorts disarmAcousticSession
    attemptTrial (resetTrial alreadyPreempted nowMs)
    onPorts (resetPorts actor)
    let b ← current
    persist options (some b.trial.generation)

/-- The rest of a reset: every client learns of the epoch once its report is written. -/
def finishReset (actor : Actor) (on : Awaited) : BridgeM Unit := do
  match ← await on with
  | .rejected =>
    onPorts (endReset actor)
    raise (.other "report writer failed")
  | _ =>
    onPorts (announceReset actor)
    broadcastSession options

/-- Reset the bridge. -/
def reset (actor : Actor) (alreadyPreempted : Bool) : BridgeM Unit := do
  let on ← beginReset options actor alreadyPreempted
  finishReset options actor on

/-- The connection of a browser that asked for a reset, whether or not it is still there. -/
def meetReset (socket : ℕ) (p : Ports) : Ports :=
  modifyConnection socket (fun c => { c with
    receivedEpoch := p.epoch
    highestReceivedSequence := -1
    errorOrigins := []
    preemptedControls := [] }) p

/-- A RESET takes its connection out of recovery. -/
def recover (sequence : ℕ) (c : BrowserConnectionState) : BrowserConnectionState :=
  { c with
    preemptedControls := c.preemptedControls.erase sequence
    mustResetBeforeUse := false }

/-- The stream of the browser begins anew. -/
def restartStream (socket : ℕ) (p : Ports) : Ports :=
  modifySocket socket (fun k => { k with lastSequence := -1, underway := .nothing }) p

/-- A RESET of a browser. -/
def acceptReset (actor : Actor) (socket : ℕ) (frame : FwavFrame) : BridgeM Unit := do
  if frame.flags.getD 0 = resetAckFlag then raise (.input "reset_ack_not_accepted")
  else if frame.payload.length ≠ 0 ∨ frame.flags.getD 0 ≠ 0 then
    raise (.input "reset_payload_not_empty")
  else
    let connection := ((← current).ports.sockets socket).connection
    onPorts (modifyConnection socket (recover frame.sequence))
    let on ← beginReset options actor (decide (frame.sequence ∈ connection.preemptedControls))
    onPorts (meetReset socket)
    finishReset options actor on
    turn
    onPorts (restartStream socket)
    let b ← current
    if b.ports.owner = some socket ∧
        !(b.ports.sockets socket).connection.mustResetBeforeUse ∧
        frame.epoch + 1 = b.ports.epoch then
      onPorts (flushPacketQueue options.ports .fipsToBrowser)
    else pure ()

/-- The phase of the session, for an ERROR. -/
def originOf (codec : CyrinxSessionCodec) : ErrorOrigin :=
  match codec with
  | .cyrinx => .cyrinx
  | .quiet => .quiet
  | _ => .other

/-- An ERROR has been handled. -/
def forgetControl (sequence : ℕ) (c : BrowserConnectionState) : BrowserConnectionState :=
  { c with
    errorOrigins := c.errorOrigins.filter (·.1 ≠ sequence)
    preemptedControls := c.preemptedControls.erase sequence }

/-- An ERROR of a browser. -/
def acceptError (socket : ℕ) (frame : FwavFrame) : BridgeM Unit := do
  onPorts (fun p => issueAcousticCapability options.ports socket (disarmAcousticSession p))
  let b ← current
  let connection := (b.ports.sockets socket).connection
  let origin := (connection.errorOrigins.lookup frame.sequence).getD
    (originOf b.trial.session.codec)
  onPorts (modifyConnection socket (forgetControl frame.sequence))
  match origin with
  | .cyrinx =>
    if b.trial.session.codec = .cyrinx then
      activateCurrentFallback options (decide (frame.sequence ∈ connection.preemptedControls))
    else pure ()
  | .quiet =>
    if b.trial.session.codec = .quiet ∧ b.trial.session.fallbackState = .activated then
      if ← askTrial quietFailed then
        awaitPersistNow options
        broadcastSession options
      else pure ()
    else pure ()
  | .other => pure ()

/-- The result a browser reports, checked against the corpus and the results so far. -/
def browserResult (payload : List (String × Json)) (epoch : ℕ) (t : Trial) :
    Except Refusal BrowserResult := do
  let result ← parseBrowserResult payload epoch
  if !isExpected options.trial result.caseId then .error (.input "unknown_case")
  else if result.coldAcquired ∧ (((expected options.trial).head?.map (·.id)) ≠ some result.caseId ∨
      t.results ≠ []) then
    .error (.input "quiet_cold_case_invalid")
  else return result

/-- Add the reason of an error of the bridge itself. -/
def noteFailure (error : Refusal) : BridgeM Unit :=
  match error with
  | .input reasonCode => onTrial (addFailure reasonCode)
  | .other _ => onTrial (addFailure "qualification_result_invalid")

/-- A result of a browser. -/
def acceptResult (socket : ℕ) (frame : FwavFrame) (payload : List (String × Json)) :
    BridgeM Unit := do
  let b ← current
  if b.trial.session.codec = .cyrinx ∨ b.trial.session.codec = .unqualified then
    raise (.input "browser_result_forbidden_during_cyrinx")
  else match browserResult options payload frame.epoch b.trial with
    | .error error =>
      noteFailure error
      awaitPersist options none
      raise error
    | .ok result =>
      match b.trial.results.lookup result.caseId with
      | some existing =>
        onTrial (recordDuplicate result.caseId existing)
        awaitPersist options none
        raise (.input "duplicate_case")
      | none =>
        let mark := b.trial.writes.length
        let generation := b.trial.generation
        onTrial (recordResult result (.browser b.trial.session.codec))
        let record := caseRecord options.trial result.caseId (← current).trial
        awaitPersist options (some generation)
        let b ← current
        if generation ≠ b.trial.generation ∨ frame.epoch ≠ b.ports.epoch then pure ()
        else
          acknowledge socket (.qualificationResult result.caseId frame.epoch)
            ⟨⟨result.caseId, mark, generation, record⟩, .qualificationResult⟩
          let now ← clock options
          attempt (enqueue frame now)

/-- A control frame of a browser. -/
def acceptControl (actor : Actor) (socket : ℕ) (frame : FwavFrame) : BridgeM Unit := do
  let payload ← orThrow (parseJsonPayload options.parseJson frame)
  if hasPacketBulk (.obj payload) then raise (.input "control_payload_contains_packet_data")
  else if hasForbiddenAuthority (.obj payload) then raise (.input "browser_authority_forbidden")
  else
    let action := match field payload "action" with
      | some (.str action) => action
      | _ => ""
    if frame.type = .qualificationCase ∧ action = "start_cyrinx" ∧ payload.length = 1 then
      let _ ← startCyrinx options actor
      pure ()
    else if frame.type = .qualificationCase ∧ action = "accept_cyrinx_instruction" then
      acceptCyrinxInstruction options actor payload
    else if frame.type = .qualificationCase ∧ action = "playback_complete" then
      completeCyrinxPlayback options actor payload
    else if frame.type = .error then acceptError options socket frame
    else if frame.type = .qualificationResult ∧ options.trial.config.isSome then
      acceptResult options socket frame payload
    else
      let now ← clock options
      attempt (enqueue frame now)

/-- Settings of the browser's audio. -/
def acceptAudioSettings (socket : ℕ) (frame : FwavFrame) : BridgeM Unit := do
  if options.trial.config.isSome then
    let payload ← orThrow (parseJsonPayload options.parseJson frame)
    if hasForbiddenAuthority (.obj payload) then raise (.input "browser_authority_forbidden")
    else
      let audio ← orThrow (parseBrowserAudio payload)
      onTrial (fun t => { t with audio := some audio })
      awaitPersist options none
  else pure ()
  match ← await .file with
  | .rejected => raise (.other "loopback report failed")
  | _ => onPorts (send socket .loopbackReport)

/-- The handler is no longer in the middle of anything. -/
def endUnderway (socket : ℕ) (p : Ports) : Ports :=
  modifySocket socket (fun k => { k with underway := .nothing }) p

/-- A packet of a browser, after the deadline was looked at. -/
def acceptPacket (socket : ℕ) (frame : FwavFrame) : BridgeM Unit := do
  let now ← clock options
  attempt (acceptBrowserPacket options.ports frame now)
  onPorts (endUnderway socket)

/-- A frame whose sequence was taken, after the deadline was looked at. -/
def acceptFrame (actor : Actor) (socket : ℕ) (frame : FwavFrame) : BridgeM Unit := do
  match frame.type with
  | .reset => acceptReset options actor socket frame
  | .fipsPacket => acceptPacket options socket frame
  | .qualificationCase => acceptControl options actor socket frame
  | .qualificationResult => acceptControl options actor socket frame
  | .error => acceptControl options actor socket frame
  | .audioSettings => acceptAudioSettings options socket frame
  | _ =>
    if frame.type = .pcmCapture ∧ (← current).trial.session.codec = .cyrinx then
      acceptCyrinxCapture options actor socket
    else
      let now ← clock options
      attempt (enqueue frame now)

/-- Take the sequence of a frame. -/
def takeSequence (socket : ℕ) (frame : FwavFrame) (p : Ports) : Ports :=
  modifySocket socket (fun k => { k with
    lastSequence := frame.sequence
    underway := if frame.type = .fipsPacket then .packet frame else .nothing }) p

/-- A frame in the order of its stream. -/
def acceptInOrder (actor : Actor) (socket : ℕ) (frame : FwavFrame) : BridgeM Unit := do
  if (frame.sequence : ℤ) ≤ ((← current).ports.sockets socket).lastSequence then
    raise (.input "stale_or_duplicate_frame")
  else
    onPorts (takeSequence socket frame)
    if frame.type = .hello then attempt (acceptHello options.ports socket frame)
    else
      let _ ← expireCyrinx options
      acceptFrame options actor socket frame

/-- A frame of the current epoch. -/
def acceptCurrent (actor : Actor) (socket : ℕ) (frame : FwavFrame) : BridgeM Unit := do
  match frame.type with
  | .fipsPacketAdmission =>
    let now ← clock options
    attempt (acceptBrowserAdmission options.ports socket frame now)
  | .acousticReady =>
    let now ← clock options
    attempt (acceptAcousticReady socket frame now)
  | .acousticDisarm => attempt (acceptAcousticDisarm options.ports socket frame)
  | _ => acceptInOrder options actor socket frame

/-- A message of a browser. -/
def acceptMessage (actor : Actor) (socket : ℕ) (message : RawMessage) : BridgeM Unit := do
  if !message.isBinary then raise (.input "binary_frames_required")
  else match decodeFrame message.rawData with
    | .error text => raise (.other text)
    | .ok frame =>
      let ports := (← current).ports
      if frame.epoch ≠ ports.epoch then raise (.input "stale_or_duplicate_frame")
      else if (ports.sockets socket).connection.mustResetBeforeUse ∧ frame.type ≠ .reset then
        raise (.input "recovery_reset_required")
      else acceptCurrent options actor socket frame

/-- Note a message whose handling ended in an error. -/
def refuse (socket : ℕ) (message : RawMessage) (p : Ports) : Ports :=
  { p with refused := p.refused ++ [⟨socket, message, (p.sockets socket).attached⟩] }

/-- An error closes the socket; an error of the bridge itself is reported first. -/
def rejectMessage (socket : ℕ) (message : RawMessage) (error : Refusal) : BridgeM Unit := do
  onPorts (refuse socket message)
  match error with
  | .input reasonCode =>
    if options.trial.config.isSome then
      onTrial (addFailure reasonCode)
      let on ← persist options none
      let _ ← await on
      pure ()
    else pure ()
  | .other _ => pure ()
  onPorts (rejectSocket socket)

/-- Handle a message of a browser. -/
def handleFrame (socket : ℕ) (message : RawMessage) : BridgeM Unit :=
  catching (acceptMessage options (.handler socket message) socket message)
    (rejectMessage options socket message)

/-- A frame of the current epoch arrives at a connection. -/
def meetEpoch (urgent : FwavFrame) (c : BrowserConnectionState) : BrowserConnectionState :=
  if c.receivedEpoch ≠ urgent.epoch then
    { c with receivedEpoch := urgent.epoch, highestReceivedSequence := -1 }
  else c

/-- The highest sequence that arrived is kept. -/
def keepHighest (sequence : ℕ) (c : BrowserConnectionState) : BrowserConnectionState :=
  { c with highestReceivedSequence := sequence }

/-- The phase in which an ERROR arrived is kept. -/
def keepOrigin (sequence : ℕ) (origin : ErrorOrigin) (c : BrowserConnectionState) :
    BrowserConnectionState :=
  { c with errorOrigins := (sequence, origin) :: c.errorOrigins.filter (·.1 ≠ sequence) }

/-- A control took effect at its arrival. -/
def keepPreempted (sequence : ℕ) (c : BrowserConnectionState) : BrowserConnectionState :=
  { c with preemptedControls := c.preemptedControls.insert sequence }

/-- A RESET ends native work at its arrival. -/
def preemptReset (socket : ℕ) (urgent : FwavFrame) : BridgeM Unit := do
  if urgent.payload.length ≠ 0 ∨ urgent.flags.getD 0 ≠ 0 then pure ()
  else if (← current).trial.session.codec = .cyrinx then
    onPorts (modifyConnection socket (keepPreempted urgent.sequence))
    let nowMs ← clock options
    let _ ← attemptTrial (preemptNative nowMs)
    pure ()
  else pure ()

/-- An ERROR ends native work at its arrival, and the fallback is reported. -/
def preemptError (socket : ℕ) (urgent : FwavFrame) : BridgeM Unit := do
  match parseJsonPayload options.parseJson urgent with
  | .error _ => pure ()
  | .ok payload =>
    if hasForbiddenAuthority (.obj payload) then pure ()
    else
      let origin := originOf (← current).trial.session.codec
      onPorts (modifyConnection socket (keepOrigin urgent.sequence origin))
      if origin = .cyrinx then
        onPorts (modifyConnection socket (keepPreempted urgent.sequence))
        let nowMs ← clock options
        if ← attemptTrial (preemptNative nowMs) then
          awaitPersistNow options
          broadcastSession options
        else pure ()
      else pure ()

/-- What a message does already when it is received; errors are left to its handler. -/
def preemptUrgentControl (socket : ℕ) (message : RawMessage) : BridgeM Unit :=
  catching
    (do
      if !message.isBinary then pure ()
      else match decodeFrame message.rawData with
        | .error _ => pure ()
        | .ok urgent =>
          if urgent.epoch ≠ (← current).ports.epoch then pure ()
          else
            onPorts (modifyConnection socket (meetEpoch urgent))
            let connection := ((← current).ports.sockets socket).connection
            if (urgent.sequence : ℤ) ≤ connection.highestReceivedSequence then pure ()
            else
              onPorts (modifyConnection socket (keepHighest urgent.sequence))
              match urgent.type with
              | .reset => preemptReset options socket urgent
              | .error => preemptError options socket urgent
              | _ => pure ())
    (fun _ => pure ())

/-- A browser connects and learns of the session. -/
def greetBrowser : BridgeM Unit := do
  let ports := (← current).ports
  onPorts (connectBrowser options.ports)
  if !browserAdmissible ports then pure ()
  else if ← expireCyrinx options then pure ()
  else
    let nowMs ← clock options
    let b ← current
    match ← askTrial (sessionSnapshot options.trial b.ports.epoch nowMs) with
    | none => pure ()
    | some published =>
      if isOpen ports.socketCount b.ports then onPorts (send ports.socketCount (.session published))
      else pure ()

/-- The close of a socket; the close of the owner ends native work. -/
def closeSocket (socket : ℕ) : BridgeM Unit := do
  let ports := (← current).ports
  match (ports.sockets socket).endpoint with
  | .fips => onPorts (closeFips socket)
  | .browser =>
    onPorts (fun p => (closeBrowser socket p).2)
    if (closeBrowser socket ports).1 then activateCurrentFallback options false else pure ()

/-- What can happen next. -/
inductive Event where
  | connectBrowser
  | connectFips
  | receive (socket : ℕ) (message : RawMessage)
  | process (socket : ℕ)
  | beginClose (socket : ℕ)
  | closed (socket : ℕ)
  | retryTimer (timer : ℕ)
  | expiryTimer
  | operatorReset (call : ℕ)
  | operatorStart (call : ℕ)
  | operatorPlayback (encoded : Bytes)
  | beginWrite (index : ℕ)
  | endWrite (index : ℕ) (succeeded : Bool)
  | microtask
  | resume (index : ℕ) (reply : Reply)
  deriving DecidableEq, Repr

/-- A bridge and the methods that wait. -/
abbrev World := System Actor Bridge Refusal Awaited Reply

/-- A handler of the socket waits. -/
def handlerWaits (socket : ℕ) (w : World) : Bool :=
  w.processes.any (fun p => match p.part with
    | .handler other _ => other = socket
    | _ => false)

/-- The answer to a packet a message carries. -/
def answerOf (message : RawMessage) : Option (FwavFrame × FipsPacketAdmission) :=
  match message.isBinary, decodeFrame message.rawData with
  | true, .ok frame =>
    if frame.type = .fipsPacketAdmission then
      match decodeFipsPacketAdmission frame.payload with
      | .ok result => some (frame, result)
      | .error _ => none
    else none
  | _, _ => none

/-- The next message of a socket is taken. -/
def takeMessage (socket : ℕ) (message : RawMessage) (p : Ports) : Ports :=
  let p := modifySocket socket (fun k => { k with inbox := k.inbox.tail, underway := .nothing }) p
  match answerOf message with
  | none => p
  | some (frame, result) => record [.answered socket frame.epoch frame.sequence result] p

/-- The actor has not begun a method yet. -/
def forgetBegin (actor : Actor) (t : Trial) : Trial :=
  { t with begun := Function.update t.begun actor none }

/-- A message waits at the end of its inbox. -/
def receiveMessage (socket : ℕ) (message : RawMessage) (p : Ports) : Ports :=
  modifySocket socket (fun k => { k with inbox := k.inbox ++ [message] }) p

/-- The bridge when the next message of a socket is taken. -/
def beginMessage (socket : ℕ) (message : RawMessage) (b : Bridge) : Bridge :=
  { b with
    ports := takeMessage socket message b.ports
    trial := forgetBegin (.handler socket message) b.trial }

/-- Handle a message of the FIPS worker. -/
def handleFips (socket : ℕ) (message : RawMessage) : BridgeM Unit := do
  let now ← clock options
  onPorts (handleFipsMessage options.ports socket message now)

/-- Handle a message by the endpoint of its socket. -/
def handleMessage (endpoint : Endpoint) (socket : ℕ) (message : RawMessage) : BridgeM Unit :=
  match endpoint with
  | .fips => handleFips options socket message
  | .browser => handleFrame options socket message

/-- Begin to handle the next message of a socket, unless one is being handled. -/
def processMessage (socket : ℕ) (w : World) : World :=
  match (w.state.ports.sockets socket).inbox with
  | [] => w
  | message :: _ =>
    if handlerWaits socket w then w
    else launch (.handler socket message)
      (handleMessage options (w.state.ports.sockets socket).endpoint socket message)
      { w with state := beginMessage socket message w.state }

/-- A message of a socket arrives. -/
def receive (socket : ℕ) (message : RawMessage) : BridgeM Unit := do
  onPorts (receiveMessage socket message)
  if ((← current).ports.sockets socket).endpoint = .browser then
    preemptUrgentControl options socket message
  else pure ()

/-- The timer of the deadline fires. -/
def expiryTimer : BridgeM Unit := do
  onTrial clearCyrinxTimer
  forceExpireCyrinx options

/-- The writer is done with a report. -/
def concludeWrite (index : ℕ) (succeeded : Bool) : BridgeM Unit := do
  if ← askTrial (endWrite index succeeded) then broadcastSession options else pure ()

/-- A broadcast that waited for its turn. -/
def microtask : BridgeM Unit := do
  onTrial (fun t => { t with microtasks := t.microtasks - 1 })
  broadcastSession options

/-- One step. -/
def step (w : World) : Event → World
  | .connectBrowser => launch (.greeting w.state.ports.socketCount) (greetBrowser options) w
  | .connectFips => launch .environment (onPorts (connectFips options.ports)) w
  | .receive socket message =>
    if (w.state.ports.sockets socket).attached then
      launch (.arrival socket message) (receive options socket message) w
    else w
  | .process socket => processMessage options socket w
  | .beginClose socket => launch (.hangup socket) (onPorts (beginClose socket)) w
  | .closed socket =>
    if (w.state.ports.sockets socket).attached then
      launch (.closure socket) (closeSocket options socket) w
    else w
  | .retryTimer timer =>
    if timer ∈ w.state.ports.retryTimers then
      launch .environment (onPorts (retryBrowserAdmission options.ports timer)) w
    else w
  | .expiryTimer =>
    if w.state.trial.cyrinxExpiryTimer then
      launch .expiryTimer (expiryTimer options) w
    else w
  | .operatorReset call =>
    if w.processes.any (·.part = .operatorReset call) then w
    else launch (.operatorReset call) (reset options (.operatorReset call) false) w
  | .operatorStart call =>
    if w.processes.any (·.part = .operatorStart call) then w
    else launch (.operatorStart call)
      (do
        let _ ← startCyrinx options (.operatorStart call)
        pure ())
      { w with state := { w.state with
          trial := forgetBegin (.operatorStart call) w.state.trial } }
  | .operatorPlayback encoded => launch .operatorPlayback (forwardPlayback encoded) w
  | .beginWrite index => launch .environment (onTrial (beginWrite index)) w
  | .endWrite index succeeded =>
    launch .environment (concludeWrite options index succeeded) w
  | .microtask =>
    if w.state.trial.microtasks = 0 then w
    else launch .environment (microtask options) w
  | .resume index reply => resumeAt admits index reply w

/-- The bridge when it begins to listen: its first report is written. -/
def createBridgeServer : World where
  state := {
    trial := match (reportNow options.trial 1 0 (options.now 0) {}).1 with
      | none => {}
      | some report => { chainWrite report 1 false {} with
          writes := (chainWrite report 1 false {}).writes.map (fun task =>
            { task with status := .written })
          handed := [(0, 1)] }
    readings := 1 }
  processes := []

end Fipwave.BridgeServer
