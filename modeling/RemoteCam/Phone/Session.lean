import RemoteCam.Lib.Transitions
import RemoteCam.Phone.Transport

/-! # The session of the phone

`RemoteCamSession` and `AppModel` run on the main actor, in a release build. Each transport event is
a task of its own there, and so are the parts of `startStreaming`, `reconfigure` and the camera
updates between two `await`s; a step of the machine is one such part, one call of the user
interface, one block or callback of the transport's queue. The tasks run in any order.

What the camera, the encoder and the discovery answer is part of the action. The encoder, the live
activity, the list of recent hosts and the idle timer change nothing that a message depends on. -/

namespace RemoteCam.Phone.Session

open RemoteCam.Lib.Transitions RemoteCam.Phone.Transport

/-! ### Data -/

inductive DiscoverySource where
  | bonjour
  | manual
  | recent
  deriving DecidableEq, Repr

structure RemoteHost where
  name : String
  hostname : String
  port : ℕ
  source : DiscoverySource
  deriving DecidableEq, Repr

inductive ConnectionPhase where
  | idle
  | connecting (host : RemoteHost)
  | awaitingPairing (host : RemoteHost)
  | ready (host : RemoteHost) (configuration : StreamConfiguration)
  | streaming (host : RemoteHost) (configuration : StreamConfiguration)
  | reconnecting (host : RemoteHost) (attempt : ℕ)
  | failed (message : String)
  deriving DecidableEq, Repr

def ConnectionPhase.host : ConnectionPhase → Option RemoteHost
  | .connecting host | .awaitingPairing host | .ready host _ | .streaming host _
  | .reconnecting host _ => some host
  | .idle | .failed _ => none

/-- Angles and levels are only compared. -/
structure DeviceTelemetrySnapshot where
  orientationDegrees : ℤ := 0
  thermal : Thermal := .nominal
  batteryLevel : ℕ := 0
  charging : Bool := false
  deriving DecidableEq, Repr

/-- A `reconnectTask` that sleeps and has not been cancelled. -/
structure ReconnectTask where
  endpoint : NWEndpoint
  delaySeconds : ℕ
  deriving DecidableEq, Repr

structure RemoteCamSession where
  phase : ConnectionPhase := .idle
  host : Option RemoteHost := none
  endpoint : Option NWEndpoint := none
  reconnectAttempt : ℕ := 0
  reconnectTask : Option ReconnectTask := none
  intentionalDisconnect : Bool := false
  controlChannelAuthenticated : Bool := false
  videoSuspended : Bool := true
  allowsUnauthenticatedConnections : Bool := false
  unauthenticatedSessionNegotiated : Bool := false
  peerAllowsUnauthenticated : Bool := false
  deriving DecidableEq, Repr

structure AppModel where
  connectionPhase : ConnectionPhase := .idle
  streamError : Option String := none
  currentConfiguration : Option StreamConfiguration := none
  lastTelemetry : Option DeviceTelemetrySnapshot := none
  streamGeneration : ℕ := 0
  lastFormatGeneration : ℕ := 0
  /-- `telemetry.snapshot`. -/
  snapshot : DeviceTelemetrySnapshot := {}
  /-- `security.allowsUnauthenticatedConnections`. -/
  allowsUnauthenticatedConnections : Bool := true
  deriving DecidableEq, Repr

/-- A task of the app, by the point it will go on from; the constructors in the past participle are
behind an `await` of the camera or of the live activity. -/
inductive AppTask where
  | accessUnit (unit : EncodedAccessUnit)
  | cameraUpdate
  | startStreaming (configuration : StreamConfiguration) (generation : ℕ)
  | startPrepared (configuration : StreamConfiguration) (generation : ℕ)
  | startAnnounced (configuration : StreamConfiguration)
  | startStopped (error : String)
  | reconfigure (configuration : StreamConfiguration) (taskGeneration formatGeneration : ℕ)
  | reconfigureStopped (configuration : StreamConfiguration)
    (previous : Option StreamConfiguration) (taskGeneration formatGeneration : ℕ)
  | reconfigurePrepared (configuration : StreamConfiguration)
    (previous : Option StreamConfiguration) (taskGeneration formatGeneration : ℕ)
  | reconfigureRestored (previous : StreamConfiguration) (taskGeneration formatGeneration : ℕ)
    (error : String)
  | reconfigureAbandoned
  deriving DecidableEq, Repr

/-- Ghosts, by connection: whose `ready` event has been handled, which have delivered a
`server_info` that negotiated an unauthenticated session, and on which a `ready` message has been
accepted. -/
structure Record where
  greeted : List ConnectionId := []
  offered : List ConnectionId := []
  accepted : List ConnectionId := []
  deriving DecidableEq, Repr

structure Client where
  transport : RemoteCamTransport := {}
  session : RemoteCamSession := {}
  app : AppModel := {}
  /-- The events whose main-actor task has not run. -/
  events : List TransportEvent := []
  tasks : List AppTask := []
  record : Record := {}
  deriving DecidableEq, Repr

/-- The phone as launched, with the stored setting. -/
def Client.start (allowsUnauthenticatedConnections : Bool) : Client :=
  { app := { allowsUnauthenticatedConnections } }

/-! ### Phases and messages -/

def sendControl (s : Client) (message : ControlMessage) : Client :=
  { s with transport := s.transport.send (.control message) }

def setVideoSuspended (s : Client) (suspended : Bool) : Client :=
  { s with session.videoSuspended := suspended }

def sendVideo (s : Client) (unit : EncodedAccessUnit) : Client :=
  if s.session.videoSuspended then s else { s with transport := s.transport.send (.video unit) }

/-- `streamGeneration &+= 1; lastFormatGeneration = 0`. -/
def AppModel.advance (app : AppModel) : AppModel :=
  { app with streamGeneration := (app.streamGeneration + 1) % 2 ^ 64, lastFormatGeneration := 0 }

def stopCaptureAfterSessionEnded (s : Client) : Client :=
  setVideoSuspended { s with app := { s.app.advance with currentConfiguration := none } } true

def onPhaseChange (s : Client) (phase : ConnectionPhase) : Client :=
  let s := { s with app.connectionPhase := phase }
  match phase with
  | .reconnecting _ _ =>
    { s with
      session.allowsUnauthenticatedConnections := s.app.allowsUnauthenticatedConnections }
  | .failed _ => stopCaptureAfterSessionEnded s
  | .idle => if s.app.currentConfiguration.isSome then stopCaptureAfterSessionEnded s else s
  | _ => s

def updatePhase (s : Client) (phase : ConnectionPhase) : Client :=
  onPhaseChange { s with session.phase := phase } phase

def markStreaming (s : Client) (configuration : StreamConfiguration) (announceStart : Bool) : Client :=
  match s.session.host with
  | none => s
  | some host =>
    updatePhase (if announceStart then sendControl s .streamStart else s)
      (.streaming host configuration)

/-! ### Connections -/

def resetSessionTrust (s : Client) : Client :=
  { s with
    session :=
      { s.session with
        controlChannelAuthenticated := false
        unauthenticatedSessionNegotiated := false
        peerAllowsUnauthenticated := false } }

/-- `RemoteCamSession.connect`. -/
def RemoteCamSession.connect (s : Client) (host : RemoteHost) (endpoint : NWEndpoint) : Client :=
  let s :=
    { s with
      session :=
        { s.session with
          intentionalDisconnect := false
          reconnectTask := none
          host := some host
          endpoint := some endpoint
          reconnectAttempt := 0 } }
  let s := updatePhase (setVideoSuspended (resetSessionTrust s) true) (.connecting host)
  { s with transport := s.transport.connect endpoint }

/-- `RemoteCamSession.disconnect`. -/
def RemoteCamSession.disconnect (s : Client) : Client :=
  let s :=
    setVideoSuspended
      { s with session := { s.session with intentionalDisconnect := true, reconnectTask := none } }
      true
  updatePhase { s with transport := s.transport.cancel } .idle

def scheduleReconnect (s : Client) (lastError : String) : Client :=
  match s.session.intentionalDisconnect, s.session.host, s.session.endpoint with
  | false, some host, some endpoint =>
    let attempt := s.session.reconnectAttempt + 1
    let s :=
      setVideoSuspended
        { s with session := { s.session with reconnectTask := none, reconnectAttempt := attempt } }
        true
    let s := updatePhase s (.reconnecting host attempt)
    { s with session.reconnectTask := some ⟨endpoint, min (2 ^ (attempt - 1)) 30⟩ }
  | _, _, _ => updatePhase s (.failed lastError)

/-- The `reconnectTask` after its sleep. -/
def reconnect (s : Client) : Client :=
  match s.session.reconnectTask with
  | none => s
  | some task =>
    let s := resetSessionTrust { s with session.reconnectTask := none }
    { s with transport := s.transport.connect task.endpoint }

/-! ### The stream -/

/-- The messages of `sendTelemetry`. -/
def telemetryMessages (last : Option DeviceTelemetrySnapshot) (snapshot : DeviceTelemetrySnapshot)
    (force : Bool) : List ControlMessage :=
  (if force ∨ last.map (·.orientationDegrees) ≠ some snapshot.orientationDegrees then
    [.orientation snapshot.orientationDegrees] else []) ++
  (if force ∨ last.map (·.thermal) ≠ some snapshot.thermal then
    [.thermal snapshot.thermal] else []) ++
  (if force ∨ last.map (·.batteryLevel) ≠ some snapshot.batteryLevel ∨
      last.map (·.charging) ≠ some snapshot.charging then
    [.battery snapshot.batteryLevel snapshot.charging] else [])

def sendTelemetry (s : Client) (snapshot : DeviceTelemetrySnapshot) (force : Bool) : Client :=
  if s.app.currentConfiguration.isSome then
    let s := (telemetryMessages s.app.lastTelemetry snapshot force).foldl sendControl s
    { s with app.lastTelemetry := some snapshot }
  else s

def await (s : Client) (task : AppTask) : Client := { s with tasks := s.tasks ++ [task] }

/-- What a `try` gives. -/
inductive Outcome where
  | ok
  | error (message : String)
  deriving DecidableEq, Repr

/-- The `catch` of `startStreaming`, up to `await camera.stop()`. -/
def startFailed (s : Client) (generation : ℕ) (error : String) : Client :=
  if generation = s.app.streamGeneration then await s (.startStopped error) else s

/-- `startStreaming` up to `await camera.prepare`; `configured` is what the encoder answers. -/
def startStreaming (s : Client) (configuration : StreamConfiguration) (generation : ℕ)
    (configured : Outcome) : Client :=
  if generation = s.app.streamGeneration then
    match configuration.validated, configured with
    | .error error, _ => startFailed s generation error.errorDescription
    | .ok _, .error error => startFailed s generation error
    | .ok configuration, .ok => await s (.startPrepared configuration generation)
  else s

/-- The end of `startStreaming`. -/
def startLive (s : Client) (configuration : StreamConfiguration) : Client :=
  let s := setVideoSuspended (markStreaming s configuration true) false
  sendTelemetry s s.app.snapshot true

def startPrepared (s : Client) (configuration : StreamConfiguration) (generation : ℕ) :
    Outcome → Client
  | .error error => startFailed s generation error
  | .ok =>
    if generation = s.app.streamGeneration then
      let s :=
        { s with
          app := { s.app with currentConfiguration := some configuration, streamError := none } }
      let s := sendControl (sendControl s .capabilities) .cameraState
      if s.app.connectionPhase.host.isSome then await s (.startAnnounced configuration)
      else startLive s configuration
    else s

def startStopped (s : Client) (error : String) : Client :=
  let s := RemoteCamSession.disconnect { s with app.currentConfiguration := none }
  { s with app := { s.app with streamError := some error, connectionPhase := .failed error } }

/-- The `catch` of `reconfigure`, up to its first `await`; `restored` is what the encoder answers
for the previous configuration. -/
def reconfigureFailed (s : Client) (previous : Option StreamConfiguration)
    (taskGeneration formatGeneration : ℕ) (error : String) (restored : Outcome) : Client :=
  if taskGeneration = s.app.streamGeneration then
    match previous, restored with
    | none, _ => await { s with app.streamError := some error } .reconfigureAbandoned
    | some previous, .ok =>
      await s (.reconfigureRestored previous taskGeneration formatGeneration error)
    | some _, .error error =>
      let streamError :=
        "Format change failed and the previous stream could not be restored: " ++ error
      await { s with app.streamError := some streamError } .reconfigureAbandoned
  else s

def reconfigure (s : Client) (configuration : StreamConfiguration)
    (taskGeneration formatGeneration : ℕ) (restored : Outcome) : Client :=
  let previous := s.app.currentConfiguration
  if taskGeneration = s.app.streamGeneration then
    match configuration.validated with
    | .error error =>
      reconfigureFailed s previous taskGeneration formatGeneration error.errorDescription restored
    | .ok configuration =>
      await s (.reconfigureStopped configuration previous taskGeneration formatGeneration)
  else s

def reconfigureStopped (s : Client) (configuration : StreamConfiguration)
    (previous : Option StreamConfiguration) (taskGeneration formatGeneration : ℕ)
    (configured restored : Outcome) : Client :=
  if taskGeneration = s.app.streamGeneration then
    match configured with
    | .error error => reconfigureFailed s previous taskGeneration formatGeneration error restored
    | .ok => await s (.reconfigurePrepared configuration previous taskGeneration formatGeneration)
  else s

def reconfigurePrepared (s : Client) (configuration : StreamConfiguration)
    (previous : Option StreamConfiguration) (taskGeneration formatGeneration : ℕ)
    (restored : Outcome) : Outcome → Client
  | .error error => reconfigureFailed s previous taskGeneration formatGeneration error restored
  | .ok =>
    if taskGeneration = s.app.streamGeneration then
      let s :=
        { s with
          app := { s.app with currentConfiguration := some configuration, streamError := none } }
      let s := sendControl (sendControl s .cameraState) (.formatAcknowledged formatGeneration)
      let s := setVideoSuspended s false
      if s.app.connectionPhase.host.isSome then markStreaming s configuration false else s
    else s

def reconfigureRestored (s : Client) (previous : StreamConfiguration)
    (taskGeneration formatGeneration : ℕ) (error : String) : Outcome → Client
  | .error error =>
    let streamError :=
      "Format change failed and the previous stream could not be restored: " ++ error
    await { s with app.streamError := some streamError } .reconfigureAbandoned
  | .ok =>
    if taskGeneration = s.app.streamGeneration then
      let s := sendControl { s with app.currentConfiguration := some previous } .cameraState
      let s := sendControl s (.formatRejected formatGeneration "format_unavailable" error)
      let s := setVideoSuspended (markStreaming s previous false) false
      let streamError :=
        "Format change rejected: " ++ error ++ ". Continuing with the previous format."
      { s with app.streamError := some streamError }
    else s

def reconfigureAbandoned (s : Client) : Client :=
  let s := RemoteCamSession.disconnect { s with app.currentConfiguration := none }
  { s with
    app.connectionPhase := .failed (s.app.streamError.getD "Video reconfiguration failed.") }

/-- A task of the app runs to its next `await`; `outcome` is what it waited for or what its first
`try` gives. -/
def resume (s : Client) (outcome restored : Outcome) : AppTask → Client
  | .accessUnit unit => sendVideo s unit
  | .cameraUpdate =>
    match outcome with
    | .ok => sendControl s .cameraState
    | .error error => { s with app.streamError := some error }
  | .startStreaming configuration generation => startStreaming s configuration generation outcome
  | .startPrepared configuration generation => startPrepared s configuration generation outcome
  | .startAnnounced configuration => startLive s configuration
  | .startStopped error => startStopped s error
  | .reconfigure configuration taskGeneration formatGeneration =>
    reconfigure s configuration taskGeneration formatGeneration restored
  | .reconfigureStopped configuration previous taskGeneration formatGeneration =>
    reconfigureStopped s configuration previous taskGeneration formatGeneration outcome restored
  | .reconfigurePrepared configuration previous taskGeneration formatGeneration =>
    reconfigurePrepared s configuration previous taskGeneration formatGeneration restored outcome
  | .reconfigureRestored previous taskGeneration formatGeneration error =>
    reconfigureRestored s previous taskGeneration formatGeneration error outcome
  | .reconfigureAbandoned => reconfigureAbandoned s

/-! ### Messages of the PC -/

/-- False in a release build. -/
def allowsInsecureDevelopmentSession : Bool := false

def RemoteCamSession.isTrusted (session : RemoteCamSession) : Bool :=
  session.controlChannelAuthenticated || session.unauthenticatedSessionNegotiated ||
    allowsInsecureDevelopmentSession

def RemoteCamSession.untrustedReadyReason (session : RemoteCamSession) : String :=
  if session.peerAllowsUnauthenticated ∧ !session.allowsUnauthenticatedConnections then
    "The Windows computer allows connections without pairing, but this iPhone does not. " ++
      "Enable \"Allow connecting without pairing\" here to connect."
  else if session.allowsUnauthenticatedConnections ∧ !session.peerAllowsUnauthenticated then
    "This iPhone allows connections without pairing, but the Windows computer does not. " ++
      "Enable the matching option in the RemoteCam desktop app."
  else
    "The server tried to start an unauthenticated session. Secure pairing must complete first."

/-- `configuration(from:)`, on the configuration in the fields. -/
def configurationFrom (fields : Option StreamConfiguration) : Option StreamConfiguration :=
  fields.bind fun configuration => configuration.validated.toOption

/-- The assignments of the `server_info` case. -/
def negotiate (s : Client) (connection : ConnectionId) (allowUnauthenticated : Option Bool) :
    Client :=
  let peerAllows := allowUnauthenticated.getD false
  let negotiated := s.session.allowsUnauthenticatedConnections && peerAllows
  { s with
    session :=
      { s.session with
        peerAllowsUnauthenticated := peerAllows
        unauthenticatedSessionNegotiated := negotiated }
    record.offered := if negotiated then connection :: s.record.offered else s.record.offered }

def handleServerInfo (s : Client) (connection : ConnectionId)
    (allowUnauthenticated paired : Option Bool) : Client :=
  let s := negotiate s connection allowUnauthenticated
  match s.session.unauthenticatedSessionNegotiated, paired, s.session.host with
  | false, some false, some host => updatePhase s (.awaitingPairing host)
  | _, _, _ => s

def onReady (s : Client) (configuration : StreamConfiguration) : Client :=
  let s := setVideoSuspended { s with app := s.app.advance } true
  await s (.startStreaming configuration s.app.streamGeneration)

def handleReady (s : Client) (connection : ConnectionId) (fields : Option StreamConfiguration) :
    Client :=
  if !s.session.isTrusted then
    let s :=
      { s with
        session := { s.session with intentionalDisconnect := true, reconnectTask := none }
        transport := s.transport.cancel }
    updatePhase s (.failed s.session.untrustedReadyReason)
  else
    match configurationFrom fields, s.session.host with
    | some configuration, some host =>
      let s := { s with record.accepted := connection :: s.record.accepted }
      onReady (updatePhase s (.ready host configuration)) configuration
    | _, _ =>
      let s :=
        { s with session.intentionalDisconnect := true, transport := s.transport.cancel }
      updatePhase s (.failed "The server requested an invalid video configuration.")

def handleSetFormat (s : Client) (generation : Option ℕ) (fields : Option StreamConfiguration) :
    Client :=
  match generation with
  | none => s
  | some formatGeneration =>
    if formatGeneration ≤ s.app.lastFormatGeneration then s
    else
      let s := { s with app.lastFormatGeneration := formatGeneration }
      match configurationFrom fields with
      | none =>
        sendControl s
          (.formatRejected formatGeneration "invalid_format"
            "The requested stream format is invalid.")
      | some configuration =>
        let s :=
          setVideoSuspended
            { s with app.streamGeneration := (s.app.streamGeneration + 1) % 2 ^ 64 } true
        await s (.reconfigure configuration s.app.streamGeneration formatGeneration)

/-- `AppModel.handle`. -/
def AppModel.handle (s : Client) : PeerMessage → Client
  | .setCamera true | .setControl => await s .cameraUpdate
  | .setFormat generation fields => handleSetFormat s generation fields
  | _ => s

def handleMessage (s : Client) (connection : ConnectionId) : PeerMessage → Client
  | .serverInfo allowUnauthenticated paired =>
    handleServerInfo s connection allowUnauthenticated paired
  | .pairRequired =>
    match s.session.host with
    | some host => updatePhase s (.awaitingPairing host)
    | none => s
  | .ready fields => handleReady s connection fields
  | message => if s.session.isTrusted then AppModel.handle s message else s

/-- `RemoteCamSession.handle`. -/
def RemoteCamSession.handle (s : Client) : TransportEvent → Client
  | .ready connection =>
    let s :=
      { s with
        session.reconnectAttempt := 0
        record.greeted := connection :: s.record.greeted }
    sendControl s (.hello s.session.allowsUnauthenticatedConnections)
  | .frame connection (.message message) => handleMessage s connection message
  | .frame _ .ignored => s
  | .failed message => scheduleReconnect s message
  | .cancelled =>
    if s.session.intentionalDisconnect then s else scheduleReconnect s "Connection cancelled."

/-! ### The user interface -/

/-- `AppModel.connect`; `discovered` is what the discovery knows of the host. -/
def AppModel.connect (s : Client) (host : RemoteHost) (discovered : Option NWEndpoint) : Client :=
  let endpoint :=
    if host.source = .bonjour ∨ (host.source = .recent ∧ host.port = 0) then discovered
    else if 0 < host.port then some (.hostPort host.hostname host.port)
    else none
  match endpoint with
  | none =>
    { s with
      app.connectionPhase := .failed "This computer no longer has a reachable network endpoint." }
  | some endpoint =>
    RemoteCamSession.connect
      { s with
        session.allowsUnauthenticatedConnections := s.app.allowsUnauthenticatedConnections }
      host endpoint

/-- `AppModel.disconnect`. -/
def AppModel.disconnect (s : Client) : Client :=
  let s := RemoteCamSession.disconnect (setVideoSuspended { s with app := s.app.advance } true)
  { s with app := { s.app with currentConfiguration := none, streamError := none } }

/-! ### The machine -/

inductive Action where
  | connect (host : RemoteHost) (discovered : Option NWEndpoint)
  | disconnect
  | setAllowsUnauthenticated (allows : Bool)
  | reconnect
  | dequeue
  | network (callback : RemoteCamTransport.Callback)
  /-- The `contentProcessed` of send `i`. -/
  | processed (i : ℕ) (error : Option String)
  /-- The main-actor task of event `i` runs. -/
  | handle (i : ℕ)
  | run (i : ℕ) (outcome restored : Outcome)
  | telemetry (snapshot : DeviceTelemetrySnapshot)
  | updateCamera
  | encode (unit : EncodedAccessUnit)
  | encoderError (message : String)
  deriving DecidableEq, Repr

/-- The transport goes on and its events get a main-actor task each. -/
def Client.emit (s : Client) : RemoteCamTransport × List TransportEvent → Client
  | (transport, events) => { s with transport, events := s.events ++ events }

def enabled (s : Client) : Action → Prop
  | .reconnect => s.session.reconnectTask.isSome
  | .dequeue => s.transport.queue ≠ []
  | .network callback => s.transport.expects callback
  | .processed i _ => i < s.transport.unprocessed.length
  | .handle i => i < s.events.length
  | .run i _ _ => i < s.tasks.length
  | _ => True

def next (s : Client) : Action → Client
  | .connect host discovered => AppModel.connect s host discovered
  | .disconnect => AppModel.disconnect s
  | .setAllowsUnauthenticated allows => { s with app.allowsUnauthenticatedConnections := allows }
  | .reconnect => reconnect s
  | .dequeue => s.emit s.transport.dequeue
  | .network callback =>
    match s.transport.connection with
    | none => s
    | some connection => s.emit (s.transport.callback connection callback)
  | .processed i error =>
    match s.transport.unprocessed[i]? with
    | none => s
    | some (connection, content) =>
      let t := { s.transport with unprocessed := s.transport.unprocessed.eraseIdx i }
      s.emit (t.processed connection content error)
  | .handle i =>
    match s.events[i]? with
    | none => s
    | some event => RemoteCamSession.handle { s with events := s.events.eraseIdx i } event
  | .run i outcome restored =>
    match s.tasks[i]? with
    | none => s
    | some task => resume { s with tasks := s.tasks.eraseIdx i } outcome restored task
  | .telemetry snapshot => sendTelemetry { s with app.snapshot := snapshot } snapshot false
  | .updateCamera => await s .cameraUpdate
  | .encode unit => await s (.accessUnit unit)
  | .encoderError message => { s with app.streamError := some message }

instance (s : Client) (a : Action) : Decidable (enabled s a) := by
  cases a <;> unfold enabled <;> infer_instance

def phone : Machine Client Action := ⟨enabled, next⟩

instance (s : Client) (a : Action) : Decidable (phone.enabled s a) :=
  inferInstanceAs (Decidable (enabled s a))

/-- A connection to a host with this address: it is opened and greeted. -/
def opening (hostname : String) : List Action :=
  [.connect ⟨"PC", hostname, 7777, .manual⟩ none, .dequeue, .network .ready, .handle 0, .dequeue]

/-- A message of the PC is received. -/
def received (message : PeerMessage) : Action := .network (.received (.data [.message message]))

def configurationSample : StreamConfiguration := ⟨.hevc, 1920, 1080, 60, 12000000⟩

/-- The PC agrees to an unauthenticated session and asks for a stream. -/
def agreement : List Action :=
  [received (.serverInfo (some true) (some false)), .handle 0,
    received (.ready (some configurationSample)), .handle 0]

/-- The stream is started without a fault, and what the app says is submitted. -/
def goLive : List Action :=
  [.run 0 .ok .ok, .run 0 .ok .ok, .run 0 .ok .ok] ++ List.replicate 6 .dequeue

/-- The connection fails and the phone asks for the next one. -/
def reconnection : List Action := [.network (.failed "reset"), .handle 0, .reconnect]

end RemoteCam.Phone.Session
