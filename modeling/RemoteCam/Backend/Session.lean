import RemoteCam.Lib.Threads
import RemoteCam.Lib.Transitions
import RemoteCam.Video.Annexb

/-! # The session controller

The threads of the PC backend: the network thread, which runs `onConnected`, `onFrame` and
`onDisconnected` one after the other, and any number of threads that call `setConsumer` or
`sendFormat`. A step of the machine is one critical section of `mutex_`, one callback of a consumer,
one tick of the watchdog or of the clock; where a thread stands between two steps is its `Pc`.

`Stream` and `Activity` are the fields under `mutex_`. What a peer message parses to, whether a send
succeeds and what a consumer answers is part of the action. The commands that only send change
nothing here, and neither do the keyframe requests whose result nobody looks at. Fields marked as
ghosts are read by no step: they number connections and video units and keep the callbacks. -/

namespace RemoteCam.Backend.Session

open RemoteCam.Lib.Threads RemoteCam.Lib.Transitions RemoteCam.Video.Annexb

abbrev Thread := ℕ

/-- The network thread; every other number is a thread that calls the controller. -/
def net : Thread := 0

abbrev ConsumerId := ℕ

/-! ### Data -/

inductive State where
  | disconnected
  | awaitingHello
  | awaitingTrust
  | ready
  | streaming
  | failed
  deriving DecidableEq, Repr

structure StreamConfig where
  codec : Codec := .h264
  width : ℕ := 1280
  height : ℕ := 720
  fps : ℕ := 30
  bitrate : ℕ := 4000000
  deriving DecidableEq, Repr

def StreamConfig.valid (c : StreamConfig) : Bool :=
  if c.width = 0 ∨ c.height = 0 then false
  else if c.width % 2 ≠ 0 ∨ c.height % 2 ≠ 0 then false
  else if c.width > 4096 ∨ c.height > 4096 then false
  else if c.width * c.height > 3840 * 2160 then false
  else if c.fps < 1 ∨ c.fps > 120 then false
  else if c.bitrate < 64000 ∨ c.bitrate > 100000000 then false
  else true

/-- Times are in milliseconds. -/
structure SessionConfig where
  serviceIdValid : Bool := true
  /-- The constructor with `ISessionSecurity`, not the one with a trust policy. -/
  sessionSecurity : Bool := true
  initialStream : StreamConfig := {}
  helloTimeout : ℕ := 5000
  trustTimeout : ℕ := 10000
  progressTimeout : ℕ := 10000
  formatAckTimeout : ℕ := 5000
  videoTimeout : ℕ := 5000
  idleTimeout : ℕ := 15000
  maxQueuedAccessUnits : ℕ := 8
  maxQueuedBytes : ℕ := 20 * 1024 * 1024
  deriving DecidableEq, Repr

structure EncodedAccessUnit where
  bytes : List UInt8
  codec : Codec
  keyframe : Bool
  ptsMicros : ℕ
  generation : ℕ
  deriving DecidableEq, Repr

/-- An access unit and, as ghosts, the connection it came on and its number among all video units
received. -/
structure Arrived where
  unit : EncodedAccessUnit
  connection : ℕ
  arrival : ℕ
  deriving DecidableEq, Repr

structure QueuedAccessUnit extends Arrived where
  token : ℕ
  deriving DecidableEq, Repr

structure VideoFrame where
  keyframe : Bool
  payload : List UInt8
  ptsMicros : ℕ := 0
  deriving DecidableEq, Repr

/-- What `handleHello` finds out: a bad message or a failed challenge, no trust yet, or trust. -/
inductive HelloVerdict where
  | refused
  | unproven
  | trusted
  deriving DecidableEq, Repr

inductive AuthVerdict where
  | malformed
  | rejected
  | accepted
  deriving DecidableEq, Repr

/-- A decoded control message, as its parser reads it. -/
inductive ControlMessage where
  | hello (deviceId : String) (verdict : HelloVerdict)
  | authResponse (verdict : AuthVerdict)
  /-- A type that only the PC sends. -/
  | pcToPhone
  | formatAck (generation : Option ℕ)
  | formatReject (generation : Option ℕ)
  | streamStart (fieldsEmpty : Bool)
  /-- `caps`, `orientation`, `thermal`, `battery`, `camera_state` or `error`. -/
  | progress (wellFormed : Bool)
  | unknown
  deriving DecidableEq, Repr

/-- A frame as `onFrame` hands it on. -/
inductive Inbound where
  /-- A frame that `onFrame` answers with `protocolFailure`. -/
  | violation
  /-- The reserved audio channel. -/
  | ignored
  | undecodable
  | control (message : ControlMessage)
  | video (frame : VideoFrame)
  deriving DecidableEq, Repr

/-- What follows a `resetConsumer`. -/
inductive After where
  | streamStart
  | formatAck
  | setConsumer
  deriving DecidableEq, Repr

/-- Where a thread stands: the next critical section or callback it will run. -/
inductive Pc where
  | idle
  /-- The network thread between two frames of a connection. -/
  | serving
  | fail
  | malformed
  | progress
  | hello (deviceId : String) (verdict : HelloVerdict)
  | authResponse (verdict : AuthVerdict)
  | authenticated
  | handshakeSend
  | streamStart
  | formatAck (generation : ℕ)
  | formatReject (generation : ℕ)
  | requestKeyframe
  | videoDrop
  | videoInvalid
  | videoEnqueue (arrived : Arrived)
  | sendFormat (config : StreamConfig)
  | setConsumer (consumer : Option ConsumerId)
  /-- `resetConsumer` before it takes `consumerMutex_`; `connection` is a ghost. -/
  | resetLock (config : StreamConfig) (generation connection : ℕ) (after : After)
  /-- `resetConsumer` inside `consumerMutex_`, with the consumer it read. -/
  | resetCall (consumer : Option ConsumerId) (config : StreamConfig) (generation connection : ℕ)
    (after : After)
  /-- Before `resettingConsumer_` is cleared. -/
  | resetClear (after : After)
  | drainEnter
  | drainTake
  /-- `drainQueue` with the front of the queue and the consumer it copied. -/
  | consume (queued : QueuedAccessUnit) (consumer : ConsumerId)
  | drainRefused
  | drainRemove (queued : QueuedAccessUnit)
  deriving DecidableEq, Repr

instance : Inhabited Pc := ⟨.idle⟩

/-- The fields that decide what reaches a consumer. -/
structure Stream where
  /-- `connection_`, as the number of the connection. -/
  connection : Option ℕ := none
  connections : ℕ := 0
  state : State := .disconnected
  trusted : Bool := false
  consumer : Option ConsumerId := none
  streamConfig : StreamConfig := {}
  streamGeneration : ℕ := 0
  pendingStreamConfig : Option StreamConfig := none
  pendingFormatGeneration : ℕ := 0
  nextFormatGeneration : ℕ := 1
  queue : List QueuedAccessUnit := []
  nextQueueToken : ℕ := 1
  queueDepth : ℕ := 0
  queueBytes : ℕ := 0
  waitingForKeyframe : Bool := true
  draining : Bool := false
  resettingConsumer : Bool := false
  droppedFrames : ℕ := 0
  deriving DecidableEq, Repr

/-- The peer's identity, the times the watchdog looks at, and counters. -/
structure Activity where
  hello : Option String := none
  connectedAt : ℕ := 0
  trustAt : ℕ := 0
  readyAt : ℕ := 0
  pendingFormatAt : ℕ := 0
  streamingAt : ℕ := 0
  lastVideoAt : ℕ := 0
  lastActivity : ℕ := 0
  receivedVideo : Bool := false
  controlMessages : ℕ := 0
  malformedMessages : ℕ := 0
  videoFrames : ℕ := 0
  videoBytes : ℕ := 0
  deriving DecidableEq, Repr

inductive Callback where
  | reset (config : StreamConfig) (generation connection : ℕ)
  | consume (queued : QueuedAccessUnit) (taken : Bool)
  deriving DecidableEq, Repr

/-- A callback, the consumer it was made on, and the consumer that callers of `setConsumer` could
count on at that time. -/
structure Event where
  consumer : ConsumerId
  callback : Callback
  settled : Option (Option ConsumerId)
  deriving DecidableEq, Repr

structure Sys where
  stream : Stream := {}
  activity : Activity := {}
  /-- The thread that owns `consumerMutex_` between two steps. -/
  consumerMutex : Option Thread := none
  pool : Pool Pc := {}
  clock : ℕ := 0
  /-- Ghost: the video units received, over all connections. -/
  arrivals : ℕ := 0
  /-- Ghost: the last replacement of the consumer, by which thread and by what. -/
  installed : Option (Thread × Option ConsumerId) := none
  /-- Ghost: the callbacks, the newest first. -/
  log : List Event := []
  deriving DecidableEq, Repr

/-- The controller as constructed, with its first consumer. -/
def Sys.start (cfg : SessionConfig) (consumer : Option ConsumerId) : Sys :=
  { stream := { consumer, streamConfig := cfg.initialStream } }

def Sys.pc (s : Sys) (t : Thread) : Pc := s.pool.get t

/-- No thread stands in the region. -/
def Sys.Free (s : Sys) (region : Pc → Bool) : Prop := ∀ t, region (s.pc t) = false

instance (s : Sys) (region : Pc → Bool) : Decidable (s.Free region) :=
  s.pool.decidableForall (P := fun pc => region pc = false)

def Sys.goto (s : Sys) (t : Thread) (pc : Pc) : Sys := { s with pool := s.pool.set t pc }

/-- The thread is outside `setConsumer`. -/
def Pc.outside : Pc → Bool
  | .idle | .sendFormat _ => true
  | _ => false

def Pc.isSetConsumer : Pc → Bool
  | .setConsumer _ => true
  | _ => false

/-- The consumer that the last `setConsumer` installed, once that call has returned and as long as
no other call has begun that is still to replace it. -/
def Sys.settled (s : Sys) : Option (Option ConsumerId) :=
  match s.installed with
  | none => none
  | some (t, consumer) =>
    if (s.pc t).outside ∧ s.pool.slots.all (fun pc => !pc.isSetConsumer) then some consumer
    else none

/-- A callback is made. -/
def Sys.record (s : Sys) (consumer : ConsumerId) (callback : Callback) : Sys :=
  { s with log := ⟨consumer, callback, s.settled⟩ :: s.log }

/-! ### Connections and failures -/

def Stream.resetQueueLocked (st : Stream) (countDrops : Bool) : Stream :=
  { st with
    droppedFrames := if countDrops then st.droppedFrames + st.queue.length else st.droppedFrames
    queue := []
    queueDepth := 0
    queueBytes := 0
    waitingForKeyframe := true }

def onConnected (cfg : SessionConfig) (s : Sys) : Sys :=
  let configValid := cfg.serviceIdValid && cfg.initialStream.valid
  { s with
    stream :=
      { s.stream with
        connection := some (s.stream.connections + 1)
        connections := s.stream.connections + 1
        state := if configValid then .awaitingHello else .failed
        trusted := false
        waitingForKeyframe := true
        queue := []
        pendingStreamConfig := none
        nextFormatGeneration := 1
        nextQueueToken := 1
        draining := false
        resettingConsumer := false
        queueDepth := 0
        queueBytes := 0
        streamGeneration := 0
        pendingFormatGeneration := 0
        streamConfig := cfg.initialStream }
    activity :=
      { s.activity with
        hello := none
        receivedVideo := false
        connectedAt := s.clock
        lastActivity := s.clock } }.goto net .serving

def onDisconnected (s : Sys) : Sys :=
  { s with
    stream :=
      { s.stream with
        connection := none
        state := .disconnected
        trusted := false
        pendingStreamConfig := none
        pendingFormatGeneration := 0
        streamGeneration := 0
        resettingConsumer := false }.resetQueueLocked true
    activity := { s.activity with hello := none, receivedVideo := false } }.goto net .idle

/-- The session fails; closing the connection is the listener's business. -/
def protocolFailure (s : Sys) (t : Thread) : Sys :=
  { s with stream.state := .failed }.goto t .serving

def malformedControl (s : Sys) (t : Thread) : Sys :=
  { s with activity.malformedMessages := s.activity.malformedMessages + 1 }.goto t .serving

/-! ### Control messages -/

/-- A message of a trusted peer in a session that is ready or streaming. -/
def trustedPc : ControlMessage → Pc
  | .hello _ _ | .authResponse _ | .pcToPhone => .fail
  | .formatAck (some generation) => .formatAck generation
  | .formatReject (some generation) => .formatReject generation
  | .formatAck none | .formatReject none => .malformed
  | .streamStart fieldsEmpty => if fieldsEmpty then .streamStart else .malformed
  | .progress wellFormed => if wellFormed then .progress else .malformed
  | .unknown => .serving

/-- `handleControl` after it has read the state and the trust. -/
def controlPc (cfg : SessionConfig) (state : State) (trusted : Bool) : ControlMessage → Pc
  | .hello deviceId verdict => if state ≠ .awaitingHello then .fail else .hello deviceId verdict
  | .authResponse verdict =>
    if state = .awaitingHello then .fail
    else if state ≠ .awaitingTrust ∨ !cfg.sessionSecurity then .fail
    else .authResponse verdict
  | message =>
    if state = .awaitingHello then .fail
    else if !trusted then .serving
    else if state ≠ .ready ∧ state ≠ .streaming then .fail
    else trustedPc message

/-- `handleHello`, up to the sends. -/
def handleHello (s : Sys) (t : Thread) (deviceId : String) (verdict : HelloVerdict) : Sys :=
  if verdict = .refused then s.goto t .fail
  else
    let trusted := verdict = .trusted
    { s with
      stream :=
        { s.stream with trusted, state := if trusted then .ready else .awaitingTrust }
      activity :=
        { s.activity with
          hello := some deviceId
          lastActivity := s.clock
          trustAt := s.clock
          readyAt := if trusted then s.clock else s.activity.readyAt } }.goto t .handshakeSend

/-- `handleAuthResponse` up to the confirmation, which is sent if `ok`. -/
def handleAuthResponse (s : Sys) (t : Thread) (verdict : AuthVerdict) (ok : Bool) : Sys :=
  match verdict with
  | .malformed => s.goto t .malformed
  | .rejected => s.goto t .fail
  | .accepted => if s.activity.hello.isNone ∨ !ok then s.goto t .fail else s.goto t .authenticated

/-- `handleAuthResponse` after the protector is installed. -/
def becomeReady (s : Sys) (t : Thread) : Sys :=
  { s with
    stream := { s.stream with trusted := true, state := .ready }
    activity := { s.activity with readyAt := s.clock, lastActivity := s.clock } }.goto t
    .handshakeSend

/-- The session progresses: `streamingAt`, and no video yet. -/
def Activity.restartVideo (a : Activity) (clock : ℕ) : Activity :=
  { a with
    streamingAt := clock
    lastVideoAt := clock
    lastActivity := clock
    receivedVideo := false }

/-- `stream_start`. -/
def startStream (s : Sys) (t : Thread) : Sys :=
  let st := s.stream
  if st.state = .ready ∧ st.pendingStreamConfig = none ∧ !st.resettingConsumer then
    { s with
      stream := { st with state := .streaming, resettingConsumer := true }
      activity := s.activity.restartVideo s.clock }.goto t
      (.resetLock st.streamConfig st.streamGeneration st.connections .streamStart)
  else s.goto t .fail

def handleFormatAck (s : Sys) (t : Thread) (generation : ℕ) : Sys :=
  let st := s.stream
  match st.pendingStreamConfig with
  | none => s.goto t .fail
  | some applied =>
    if st.pendingFormatGeneration = generation ∧ !st.resettingConsumer then
      { s with
        stream :=
          { st.resetQueueLocked true with
            streamConfig := applied
            pendingStreamConfig := none
            streamGeneration := generation
            pendingFormatGeneration := 0
            resettingConsumer := true }
        activity := s.activity.restartVideo s.clock }.goto t
        (.resetLock applied generation st.connections .formatAck)
    else s.goto t .fail

def handleFormatReject (s : Sys) (t : Thread) (generation : ℕ) : Sys :=
  let st := s.stream
  if st.pendingStreamConfig.isSome ∧ st.pendingFormatGeneration = generation ∧
      !st.resettingConsumer then
    { s with
      stream :=
        { st.resetQueueLocked true with
          pendingStreamConfig := none
          pendingFormatGeneration := 0 }
      activity := s.activity.restartVideo s.clock }.goto t .requestKeyframe
  else s.goto t .fail

/-! ### Video -/

/-- `handleVideo` after its first critical section. -/
def videoPc (st : Stream) (frame : VideoFrame) (arrival : ℕ) : Pc :=
  let transitionPending := st.pendingStreamConfig.isSome || st.resettingConsumer
  if !st.trusted then .serving
  else if st.state ≠ .streaming ∨ transitionPending then .videoDrop
  else
    let codec := st.streamConfig.codec
    let report := inspect frame.payload codec
    let flagMatchesBitstream := frame.keyframe = report.hasKeyframeSlice
    if !report.isAnnexB ∨ !report.hasVideoSlice ∨ ¬ flagMatchesBitstream ∨
        (frame.keyframe ∧ !report.isSelfContainedKeyframe) then .videoInvalid
    else
      .videoEnqueue
        { unit :=
            { bytes := frame.payload
              codec
              keyframe := frame.keyframe
              ptsMicros := frame.ptsMicros
              generation := st.streamGeneration }
          connection := st.connections
          arrival }

def countDrop (st : Stream) : Stream := { st with droppedFrames := st.droppedFrames + 1 }

/-- A keyframe ends the wait for one. -/
def Stream.meetKeyframe (st : Stream) (keyframe : Bool) : Stream :=
  { st with waitingForKeyframe := if keyframe then false else st.waitingForKeyframe }

/-- The unit is appended. -/
def Stream.append (st : Stream) (a : Arrived) : Stream :=
  { st with
    queue := st.queue ++ [{ a with token := st.nextQueueToken }]
    nextQueueToken := st.nextQueueToken + 1
    queueDepth := st.queue.length + 1
    queueBytes := st.queueBytes + a.unit.bytes.length }

/-- The last critical section of `handleVideo`. -/
def enqueue (cfg : SessionConfig) (s : Sys) (t : Thread) (a : Arrived) : Sys :=
  let st := s.stream
  if st.waitingForKeyframe ∧ !a.unit.keyframe then { s with stream := countDrop st }.goto t .serving
  else
    let st := st.meetKeyframe a.unit.keyframe
    let activity :=
      { s.activity with lastActivity := s.clock, lastVideoAt := s.clock, receivedVideo := true }
    if st.queue.length ≥ cfg.maxQueuedAccessUnits ∨
        st.queueBytes + a.unit.bytes.length > cfg.maxQueuedBytes then
      { s with stream := countDrop (st.resetQueueLocked true), activity }.goto t .serving
    else
      { s with
        stream := st.append a
        activity :=
          { activity with
            videoFrames := activity.videoFrames + 1
            videoBytes := activity.videoBytes + a.unit.bytes.length } }.goto t .drainEnter

/-! ### Consumers -/

/-- `drainQueue` returns: to the next frame, or out of `setConsumer`. -/
def Sys.drainReturn (s : Sys) (t : Thread) : Sys := s.goto t (if t = net then .serving else .idle)

def drainEnter (s : Sys) (t : Thread) : Sys :=
  if s.stream.draining then s.drainReturn t
  else { s with stream.draining := true }.goto t .drainTake

/-- The copy of the front of the queue and of the consumer. -/
def drainTake (s : Sys) (t : Thread) : Sys :=
  match s.stream.queue, s.stream.consumer with
  | queued :: _, some consumer =>
    if s.stream.resettingConsumer then { s with stream.draining := false }.drainReturn t
    else s.goto t (.consume queued consumer)
  | _, _ => { s with stream.draining := false }.drainReturn t

def drainConsume (s : Sys) (t : Thread) (queued : QueuedAccessUnit) (consumer : ConsumerId)
    (consumed : Bool) : Sys :=
  (s.record consumer (.consume queued consumed)).goto t
    (if consumed then .drainRemove queued else .drainRefused)

/-- Only the unit just consumed is removed, by its token. -/
def drainRemove (s : Sys) (t : Thread) (queued : QueuedAccessUnit) : Sys :=
  match s.stream.queue with
  | front :: rest =>
    if front.token = queued.token then
      { s with
        stream :=
          { s.stream with
            queue := rest
            queueBytes := s.stream.queueBytes - front.unit.bytes.length
            queueDepth := rest.length } }.goto t .drainTake
    else { s with stream.queueDepth := s.stream.queue.length }.goto t .drainTake
  | [] => { s with stream.queueDepth := 0 }.goto t .drainTake

/-- `resetConsumer` takes `consumerMutex_` and reads the consumer. -/
def resetLock (s : Sys) (t : Thread) (config : StreamConfig) (generation connection : ℕ)
    (after : After) : Sys :=
  { s with consumerMutex := some t }.goto t
    (.resetCall s.stream.consumer config generation connection after)

def resetCall (s : Sys) (t : Thread) (consumer : Option ConsumerId) (config : StreamConfig)
    (generation connection : ℕ) (after : After) : Sys :=
  let s :=
    match consumer with
    | none => s
    | some consumer => s.record consumer (.reset config generation connection)
  { s with consumerMutex := none }.goto t (.resetClear after)

def resetClear (s : Sys) (t : Thread) (after : After) : Sys :=
  { s with stream.resettingConsumer := false }.goto t
    (match after with
    | .streamStart => .serving
    | .formatAck => .requestKeyframe
    | .setConsumer => .drainEnter)

/-- `setConsumer` inside `consumerMutex_`. -/
def replaceConsumer (s : Sys) (t : Thread) (consumer : Option ConsumerId) : Sys :=
  let st := { s.stream with consumer }
  let installed := some (t, consumer)
  if consumer.isSome ∧ st.state = .streaming ∧ st.pendingStreamConfig = none ∧
      !st.resettingConsumer then
    { s with stream := { st with resettingConsumer := true }, installed }.goto t
      (.resetLock st.streamConfig st.streamGeneration st.connections .setConsumer)
  else { s with stream := st, installed }.goto t .drainEnter

/-- `sendFormat`; its message is sent inside the critical section. -/
def sendFormat (s : Sys) (t : Thread) (config : StreamConfig) (ok : Bool) : Sys :=
  let st := s.stream
  if !config.valid ∨ st.connection = none ∨ !st.trusted ∨ st.state ≠ .streaming ∨
      st.pendingStreamConfig.isSome ∨ st.resettingConsumer then s.goto t .idle
  else
    let st := { st with nextFormatGeneration := st.nextFormatGeneration + 1 }.resetQueueLocked true
    { s with
      stream :=
        if ok then
          { st with
            pendingStreamConfig := some config
            pendingFormatGeneration := s.stream.nextFormatGeneration }
        else { st with pendingStreamConfig := none, pendingFormatGeneration := 0 }
      activity.pendingFormatAt := s.clock }.goto t .idle

/-! ### The watchdog -/

def expired (cfg : SessionConfig) (s : Sys) : Bool :=
  let a := s.activity
  let since (time : ℕ) := s.clock - time
  (s.stream.state = .awaitingHello && since a.connectedAt > cfg.helloTimeout) ||
    (s.stream.state = .awaitingTrust && since a.trustAt > cfg.trustTimeout) ||
    (s.stream.pendingStreamConfig.isSome && since a.pendingFormatAt > cfg.formatAckTimeout) ||
    (s.stream.state = .ready && since a.readyAt > cfg.progressTimeout) ||
    (s.stream.state = .streaming &&
      since (if a.receivedVideo then a.lastVideoAt else a.streamingAt) > cfg.videoTimeout) ||
    since a.lastActivity > cfg.idleTimeout

def watchdog (cfg : SessionConfig) (s : Sys) : Sys :=
  if expired cfg s then { s with stream.state := .failed } else s

/-! ### The machine -/

inductive Call where
  | setConsumer (consumer : Option ConsumerId)
  | sendFormat (config : StreamConfig)
  deriving DecidableEq, Repr

def Call.pc : Call → Pc
  | .setConsumer consumer => .setConsumer consumer
  | .sendFormat config => .sendFormat config

inductive Action where
  | connect
  | disconnect
  | receive (inbound : Inbound)
  | call (t : Thread) (c : Call)
  /-- The next step of a thread; `ok` is what a send or a consumer answers. -/
  | run (t : Thread) (ok : Bool)
  | watchdog
  | tick
  deriving DecidableEq, Repr

/-- `onFrame` up to the end of the first critical section of `handleControl` or `handleVideo`. -/
def onFrame (cfg : SessionConfig) (s : Sys) : Inbound → Sys
  | .violation => s.goto net .fail
  | .ignored => s
  | .undecodable => s.goto net .malformed
  | .control message =>
    { s with activity.controlMessages := s.activity.controlMessages + 1 }.goto net
      (controlPc cfg s.stream.state s.stream.trusted message)
  | .video frame =>
    { s with arrivals := s.arrivals + 1 }.goto net (videoPc s.stream frame s.arrivals)

/-- The next step of a thread that stands at `pc`. -/
def step (cfg : SessionConfig) (s : Sys) (t : Thread) (ok : Bool) : Pc → Sys
  | .idle | .serving => s
  | .fail => protocolFailure s t
  | .malformed => malformedControl s t
  | .progress => { s with activity.lastActivity := s.clock }.goto t .serving
  | .hello deviceId verdict => handleHello s t deviceId verdict
  | .authResponse verdict => handleAuthResponse s t verdict ok
  | .authenticated => becomeReady s t
  | .handshakeSend => s.goto t (if ok then .serving else .fail)
  | .streamStart => startStream s t
  | .formatAck generation => handleFormatAck s t generation
  | .formatReject generation => handleFormatReject s t generation
  | .requestKeyframe => s.goto t (if ok then .serving else .fail)
  | .videoDrop => { s with stream := countDrop s.stream }.goto t .serving
  | .videoInvalid => { s with stream := (countDrop s.stream).resetQueueLocked true }.goto t .serving
  | .videoEnqueue arrived => enqueue cfg s t arrived
  | .sendFormat config => sendFormat s t config ok
  | .setConsumer consumer => replaceConsumer s t consumer
  | .resetLock config generation connection after =>
    resetLock s t config generation connection after
  | .resetCall consumer config generation connection after =>
    resetCall s t consumer config generation connection after
  | .resetClear after => resetClear s t after
  | .drainEnter => drainEnter s t
  | .drainTake => drainTake s t
  | .consume queued consumer => drainConsume s t queued consumer ok
  | .drainRefused => { s with stream.draining := false }.drainReturn t
  | .drainRemove queued => drainRemove s t queued

/-- The steps that begin by taking `consumerMutex_`. -/
def Pc.locksConsumer : Pc → Bool
  | .setConsumer _ | .resetLock .. | .consume .. => true
  | _ => false

def enabled (s : Sys) : Action → Prop
  | .connect => s.pc net = .idle
  | .disconnect => s.pc net = .serving
  | .receive _ => s.pc net = .serving
  | .call t _ => t ≠ net ∧ s.pc t = .idle
  | .run t _ =>
    s.pc t ≠ .idle ∧ s.pc t ≠ .serving ∧ ((s.pc t).locksConsumer → s.consumerMutex = none)
  | .watchdog => s.stream.connection.isSome
  | .tick => True

def next (cfg : SessionConfig) (s : Sys) : Action → Sys
  | .connect => onConnected cfg s
  | .disconnect => onDisconnected s
  | .receive inbound => onFrame cfg s inbound
  | .call t c => s.goto t c.pc
  | .run t ok => step cfg s t ok (s.pc t)
  | .watchdog => watchdog cfg s
  | .tick => { s with clock := s.clock + 1 }

instance (s : Sys) (a : Action) : Decidable (enabled s a) := by
  cases a <;> unfold enabled <;> infer_instance

def controller (cfg : SessionConfig) : Machine Sys Action := ⟨enabled, next cfg⟩

instance (cfg : SessionConfig) (s : Sys) (a : Action) : Decidable ((controller cfg).enabled s a) :=
  inferInstanceAs (Decidable (enabled s a))

/-- The handshake of a trusted phone on a new connection, `stream_start`, and the reset it leads to.
-/
def bringUp : List Action :=
  [.connect, .receive (.control (.hello "phone" .trusted)), .run net true, .run net true,
    .receive (.control (.streamStart true)), .run net true, .run net true, .run net true,
    .run net true]

/-- A video frame is received and its unit appended. -/
def video (frame : VideoFrame) : List Action := [.receive (.video frame), .run net true]

/-- A step of thread `t` for each answer. -/
def steps (t : Thread) (answers : List Bool) : List Action := answers.map (.run t)

/-- An H.264 keyframe with its parameter sets. -/
def keyframeSample : VideoFrame :=
  { keyframe := true, payload := [0, 0, 0, 1, 0x67, 1, 0, 0, 1, 0x68, 2, 0, 0, 1, 0x65, 3] }

def deltaSample : VideoFrame := { keyframe := false, payload := [0, 0, 1, 0x41, 3] }

end RemoteCam.Backend.Session
