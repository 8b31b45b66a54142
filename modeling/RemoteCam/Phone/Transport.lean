import Mathlib.Data.Int.Notation
import Mathlib.Data.Nat.Notation

/-! # The transport of the phone

`RemoteCamTransport` owns the TCP connection. The main actor only puts blocks on its serial queue;
the blocks, the state changes of the connection and what it receives run there one at a time, and
each event becomes a task of the main actor.

Connections are numbered by the calls of `connect`; the numbers that messages and events carry are
ghosts. Of `NWConnection` it is used that one becomes ready at most once and receives nothing before
that. A callback of a connection that is no longer `self.connection` returns at once, so there are
none. -/

namespace RemoteCam.Phone.Transport

abbrev ConnectionId := ℕ

/-! ### Data -/

inductive VideoCodec where
  | hevc
  | h264
  deriving DecidableEq, Repr

structure StreamConfiguration where
  codec : VideoCodec
  width : ℕ
  height : ℕ
  framesPerSecond : ℕ
  bitrate : ℕ
  deriving DecidableEq, Repr

inductive StreamConfigurationError where
  | invalidDimensions
  | invalidFrameRate
  | invalidBitrate
  deriving DecidableEq, Repr

def StreamConfigurationError.errorDescription : StreamConfigurationError → String
  | .invalidDimensions => "The requested video dimensions are unsupported."
  | .invalidFrameRate => "The requested frame rate is unsupported."
  | .invalidBitrate => "The requested video bitrate is unsupported."

def StreamConfiguration.validated (c : StreamConfiguration) :
    Except StreamConfigurationError StreamConfiguration :=
  if ¬(0 < c.width ∧ 0 < c.height ∧ c.width ≤ 4096 ∧ c.height ≤ 4096 ∧ c.width % 2 = 0 ∧
      c.height % 2 = 0 ∧ c.width ≤ 3840 * 2160 / c.height) then .error .invalidDimensions
  else if ¬(1 ≤ c.framesPerSecond ∧ c.framesPerSecond ≤ 120) then .error .invalidFrameRate
  else if ¬(64000 ≤ c.bitrate ∧ c.bitrate ≤ 100000000) then .error .invalidBitrate
  else .ok c

inductive NWEndpoint where
  | service (name : String)
  | hostPort (host : String) (port : ℕ)
  deriving DecidableEq, Repr

inductive Thermal where
  | nominal
  | fair
  | serious
  | critical
  deriving DecidableEq, Repr

/-- What the phone sends; the contents of `caps` and `camera_state` matter to no step. -/
inductive ControlMessage where
  | hello (allowUnauthenticated : Bool)
  | capabilities
  | cameraState
  | orientation (degrees : ℤ)
  | thermal (state : Thermal)
  | battery (level : ℕ) (charging : Bool)
  | streamStart
  | formatAcknowledged (generation : ℕ)
  | formatRejected (generation : ℕ) (code message : String)
  deriving DecidableEq, Repr

structure EncodedAccessUnit where
  data : List UInt8
  isKeyframe : Bool
  presentationTimeMicros : ℕ
  deriving DecidableEq, Repr

/-- A frame of the phone, by its channel. -/
inductive Content where
  | control (message : ControlMessage)
  | video (unit : EncodedAccessUnit)
  deriving DecidableEq, Repr

/-- A control message of the PC, as far as its handler reads it. A field that is missing or has
another type is `none`. -/
inductive PeerMessage where
  | serverInfo (allowUnauthenticated paired : Option Bool)
  | pairRequired
  | ready (configuration : Option StreamConfiguration)
  /-- `set_camera`; whether a camera of the phone matches. -/
  | setCamera (found : Bool)
  | setFormat (generation : Option ℕ) (configuration : Option StreamConfiguration)
  | setControl
  /-- `stats`, `request_keyframe`, `set_preview` and unknown types. -/
  | other
  deriving DecidableEq, Repr

/-- A frame of the PC; `ignored` is one of another channel or with a malformed message. -/
inductive PeerFrame where
  | ignored
  | message (message : PeerMessage)
  deriving DecidableEq, Repr

inductive TransportEvent where
  | ready (connection : ConnectionId)
  | frame (connection : ConnectionId) (frame : PeerFrame)
  | failed (message : String)
  | cancelled
  deriving DecidableEq, Repr

namespace TransportEvent

/-- The connection that has become ready. -/
def opens : TransportEvent → Option ConnectionId
  | .ready c => some c
  | _ => none

/-- The connection and the fields of a `ready` message. -/
def readyMessage : TransportEvent → Option (ConnectionId × Option StreamConfiguration)
  | .frame c (.message (.ready fields)) => some (c, fields)
  | _ => none

/-- The connection of a `server_info` that allows an unauthenticated session. -/
def offer : TransportEvent → Option ConnectionId
  | .frame c (.message (.serverInfo (some true) _)) => some c
  | _ => none

/-- The generation and the fields of a `set_format` message. -/
def setFormat : TransportEvent → Option (ℕ × Option StreamConfiguration)
  | .frame _ (.message (.setFormat (some generation) fields)) => some (generation, fields)
  | _ => none

end TransportEvent

/-! ### The transport -/

/-- A block on the serial queue. -/
inductive Block where
  | connect (connection : ConnectionId) (endpoint : NWEndpoint)
  | reportFailure (message : String)
  | send (content : Content)
  | cancel
  deriving DecidableEq, Repr

structure RemoteCamTransport where
  /-- The blocks that have not run, the oldest first. -/
  queue : List Block := []
  connection : Option ConnectionId := none
  reservedVideoBytes : ℕ := 0
  failureReported : Bool := false
  droppedVideoFrames : ℕ := 0
  /-- The connection has become ready. -/
  opened : Bool := false
  /-- A `connection.receive` is outstanding. -/
  receiving : Bool := false
  /-- The contents whose `contentProcessed` has not run. -/
  unprocessed : List (ConnectionId × Content) := []
  /-- Ghost: the number of calls of `connect`. -/
  requests : ℕ := 0
  /-- Ghost: the connection that was asked for last, unless `cancel` has been called since. -/
  asked : Option ConnectionId := none
  /-- Ghost: the calls of `connection.send`, the oldest first. -/
  submitted : List (ConnectionId × Content) := []
  deriving DecidableEq, Repr

namespace RemoteCamTransport

def maximumPendingVideoBytes : ℕ := 20 * 1024 * 1024

def enqueue (t : RemoteCamTransport) (block : Block) : RemoteCamTransport :=
  { t with queue := t.queue ++ [block] }

def connect (t : RemoteCamTransport) (endpoint : NWEndpoint) : RemoteCamTransport :=
  let t := { t with requests := t.requests + 1, asked := some (t.requests + 1) }
  t.enqueue (.connect t.requests endpoint)

def cancel (t : RemoteCamTransport) : RemoteCamTransport := { t with asked := none }.enqueue .cancel

/-- `WireFrame.encoded` fails for a payload above 16 MiB, which only a video unit can have. -/
def encoded : Content → Except String ℕ
  | .control _ => .ok 0
  | .video unit =>
    if 16 * 1024 * 1024 < unit.data.length then .error "payloadTooLarge"
    else .ok (16 + unit.data.length)

/-- `send`; the length of a control message is not looked at. -/
def send (t : RemoteCamTransport) (content : Content) : RemoteCamTransport :=
  match encoded content with
  | .error message => t.enqueue (.reportFailure message)
  | .ok length =>
    let available := maximumPendingVideoBytes - min t.reservedVideoBytes maximumPendingVideoBytes
    if available < length then { t with droppedVideoFrames := t.droppedVideoFrames + 1 }
    else { t with reservedVideoBytes := t.reservedVideoBytes + length }.enqueue (.send content)

def releaseVideoReservation (t : RemoteCamTransport) : Content → RemoteCamTransport
  | .control _ => t
  | .video unit => { t with reservedVideoBytes := t.reservedVideoBytes - (16 + unit.data.length) }

def reportFailure (t : RemoteCamTransport) (message : String) :
    RemoteCamTransport × List TransportEvent :=
  if t.failureReported then (t, []) else ({ t with failureReported := true }, [.failed message])

def execute (t : RemoteCamTransport) : Block → RemoteCamTransport × List TransportEvent
  | .connect connection _ =>
    ({ t with
      connection := some connection, failureReported := false, opened := false,
      receiving := false }, [])
  | .reportFailure message => t.reportFailure message
  | .send content =>
    match t.connection with
    | none => (t.releaseVideoReservation content, [])
    | some connection =>
      ({ t with
        unprocessed := t.unprocessed ++ [(connection, content)]
        submitted := t.submitted ++ [(connection, content)] }, [])
  | .cancel => ({ t with connection := none }, [])

/-- The oldest block runs. -/
def dequeue (t : RemoteCamTransport) : RemoteCamTransport × List TransportEvent :=
  match t.queue with
  | [] => (t, [])
  | block :: queue => { t with queue }.execute block

/-- What `connection.receive` delivers. -/
inductive Receipt where
  | data (frames : List PeerFrame)
  | undecodable (message : String)
  | error (frames : List PeerFrame) (message : String)
  | complete (frames : List PeerFrame)
  deriving DecidableEq, Repr

inductive Callback where
  | ready
  | failed (message : String)
  | cancelled
  | received (receipt : Receipt)
  deriving DecidableEq, Repr

/-- The connection is such that the callback can come. -/
def expects (t : RemoteCamTransport) : Callback → Prop
  | .ready => t.connection.isSome ∧ ¬t.opened
  | .failed _ | .cancelled => t.connection.isSome
  | .received _ => t.connection.isSome ∧ t.receiving

instance (t : RemoteCamTransport) (callback : Callback) : Decidable (t.expects callback) := by
  cases callback <;> unfold expects <;> infer_instance

/-- `receive`, from its completion to the next call. -/
def receive (t : RemoteCamTransport) (connection : ConnectionId) :
    Receipt → RemoteCamTransport × List TransportEvent
  | .data frames => (t, frames.map (.frame connection))
  | .undecodable message => { t with receiving := false }.reportFailure message
  | .error frames message =>
    let (t, events) := { t with receiving := false }.reportFailure message
    (t, frames.map (.frame connection) ++ events)
  | .complete frames =>
    let (t, events) := { t with receiving := false }.reportFailure
      "The Windows computer closed the connection."
    (t, frames.map (.frame connection) ++ events)

def callback (t : RemoteCamTransport) (connection : ConnectionId) :
    Callback → RemoteCamTransport × List TransportEvent
  | .ready => ({ t with opened := true, receiving := true }, [.ready connection])
  | .failed message => t.reportFailure message
  | .cancelled => (t, if t.failureReported then [] else [.cancelled])
  | .received receipt => t.receive connection receipt

/-- The completion of the send `(connection, content)`, which has left `unprocessed`. -/
def processed (t : RemoteCamTransport) (connection : ConnectionId) (content : Content)
    (error : Option String) : RemoteCamTransport × List TransportEvent :=
  let t := t.releaseVideoReservation content
  match error with
  | some message => if t.connection = some connection then t.reportFailure message else (t, [])
  | none => (t, [])

end RemoteCamTransport

end RemoteCam.Phone.Transport
