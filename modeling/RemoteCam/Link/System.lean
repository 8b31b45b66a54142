import RemoteCam.Backend.Opening
import RemoteCam.Phone.Keyframes

/-! # The PC and the phone on one connection

The machine of the controller and the machine of the phone, joined by two lines: a message that the
PC writes is received later, in the order of writing, and so is what the phone submits. One
connection is followed from the call of `onConnected` and the phone's first `connect` on; nothing
fails on it, and the watchdog does not fire.

What is asked for is `mismatch`, that no answer to a format change surprises the PC, and `Encoded`,
that the units it enqueues come from an encoder with the configuration it has committed. -/

namespace RemoteCam.Link.System

open RemoteCam.Lib.Transitions
open RemoteCam.Backend.Session (net Arrived SessionConfig StreamConfig VideoFrame)
open RemoteCam.Backend.Handshake (Line Message)
open RemoteCam.Phone.Transport
open RemoteCam.Phone.Session (Client)
open RemoteCam.Phone.Keyframes (encoderCalled unitOf)

/-! ### What is sent -/

def codec : Video.Annexb.Codec → VideoCodec
  | .h264 => .h264
  | .hevc => .hevc

/-- A configuration of the PC as the phone reads it. -/
def format (c : StreamConfig) : StreamConfiguration :=
  ⟨codec c.codec, c.width, c.height, c.fps, c.bitrate⟩

/-- What messages say that the controller does not keep. -/
structure Details where
  allowUnauthenticated : Option Bool := none
  paired : Option Bool := none
  /-- The phone has the camera of the `set_camera`. -/
  found : Bool := false
  deriving DecidableEq, Repr

/-- The configuration that the step proposes. -/
def proposal (l : Line) : Backend.Handshake.Action → Option StreamConfig
  | .session a => Backend.FormatChange.proposal l.session a
  | _ => none

/-- A message that the step writes. -/
def message (d : Details) (l : Line) (a : Backend.Handshake.Action) : Message → PeerMessage
  | .serverInfo => .serverInfo d.allowUnauthenticated d.paired
  | .ready => .ready (some (format l.session.stream.streamConfig))
  | .setFormat =>
    .setFormat (some l.session.stream.nextFormatGeneration) ((proposal l a).map format)
  | .setCamera => .setCamera d.found
  | .setControl => .setControl
  | _ => .other

/-- What a message of the phone may be parsed to. -/
def readings : ControlMessage → List Backend.Session.ControlMessage
  | .hello _ => []
  | .formatAcknowledged generation => [.formatAck (some generation)]
  | .formatRejected generation _ _ => [.formatReject (some generation)]
  | .streamStart => [.streamStart true]
  | .capabilities | .cameraState | .orientation _ | .thermal _ | .battery _ _ =>
    [.progress true, .progress false]

def frame (unit : EncodedAccessUnit) : VideoFrame :=
  ⟨unit.isKeyframe, unit.data, unit.presentationTimeMicros⟩

/-- The step of the PC receives the content. -/
def Receives : Content → Backend.Handshake.Action → Prop
  | .control (.hello _), .hello _ _ => True
  | .control said, .session (.receive (.control heard)) => heard ∈ readings said
  | .video unit, .session (.receive (.video received)) => received = frame unit
  | _, _ => False

/-- The step receives something. -/
def takes : Backend.Handshake.Action → Bool
  | .hello _ _ | .session (.receive _) => true
  | _ => false

/-- `Receives`, computed. -/
def received : Content → Backend.Handshake.Action → Bool
  | .control (.hello _), .hello _ _ => true
  | .control said, .session (.receive (.control heard)) => (readings said).contains heard
  | .video unit, .session (.receive (.video received)) => received == frame unit
  | _, _ => false

theorem received_iff {content : Content} {a : Backend.Handshake.Action} :
    received content a = true ↔ Receives content a := by
  unfold received Receives
  split <;> simp

instance (content : Content) (a : Backend.Handshake.Action) : Decidable (Receives content a) :=
  decidable_of_iff (received content a = true) received_iff

/-! ### The machine -/

structure Pair where
  pc : Line
  phone : Client
  /-- The configuration of the encoder's session. -/
  encoder : Option StreamConfiguration := none
  /-- What the PC has written and the phone not received. -/
  sent : List PeerMessage := []
  /-- The number of contents that the PC has received. -/
  received : ℕ := 0
  /-- Ghost: the units that the encoder has put out, each with the configuration. -/
  made : List (EncodedAccessUnit × StreamConfiguration) := []
  deriving DecidableEq, Repr

inductive Action where
  | pc (a : Backend.Handshake.Action) (d : Details)
  | phone (a : Phone.Session.Action)
  deriving DecidableEq, Repr

/-- The next content for the PC. -/
def Pair.coming (p : Pair) : Option Content :=
  (p.phone.transport.submitted[p.received]?).map Prod.snd

/-- A report of a failure. -/
def fails : TransportEvent → Bool
  | .failed _ | .cancelled => true
  | .ready _ | .frame _ _ => false

/-- Nothing fails, there is no other connection, and the watchdog is silent. -/
def smooth (s : Client) : Action → Prop
  | .pc a _ => a ≠ .session .connect ∧ a ≠ .session .watchdog
  | .phone (.connect _ _) | .phone .reconnect => False
  | .phone (.network (.failed _)) | .phone (.network .cancelled) => False
  | .phone (.network (.received (.undecodable _)))
  | .phone (.network (.received (.error _ _)))
  | .phone (.network (.received (.complete _))) => False
  | .phone (.processed _ error) => error = none
  | .phone (.handle i) => ∀ event ∈ s.events[i]?, fails event = false
  | .phone _ => True

/-- The lines keep their order; a unit comes from the encoder's session. -/
def carried (p : Pair) : Action → Prop
  | .pc a _ => takes a = true → ∃ content ∈ p.coming, Receives content a
  | .phone (.network (.received (.data frames))) => frames <+: p.sent.map .message
  | .phone (.encode _) => p.encoder.isSome = true
  | .phone _ => True

def enabled (cfg : SessionConfig) (p : Pair) (a : Action) : Prop :=
  (match a with
    | .pc a _ => Backend.Handshake.enabled cfg p.pc a
    | .phone a => Phone.Session.enabled p.phone a) ∧ smooth p.phone a ∧ carried p a

def next (cfg : SessionConfig) (p : Pair) : Action → Pair
  | .pc a d =>
    let pc := Backend.Handshake.next cfg p.pc a
    { p with
      pc
      sent := p.sent ++ (pc.written.drop p.pc.written.length).map (message d p.pc a)
      received := if takes a then p.received + 1 else p.received }
  | .phone a =>
    { p with
      phone := Phone.Session.next p.phone a
      encoder := (encoderCalled p.phone a).getD p.encoder
      sent :=
        match a with
        | .network (.received (.data frames)) => p.sent.drop frames.length
        | _ => p.sent
      made :=
        match a with
        | .encode unit => (p.encoder.map (unit, ·)).toList ++ p.made
        | _ => p.made }

def system (cfg : SessionConfig) : Machine Pair Action := ⟨enabled cfg, next cfg⟩

/-- The PC gets a connection, and the phone has asked for one. -/
def Pair.start (cfg : SessionConfig) (line : Line) (allowsUnauthenticated : Bool)
    (host : Phone.Session.RemoteHost) (discovered : Option NWEndpoint) : Pair where
  pc := Backend.Handshake.next cfg line (.session .connect)
  phone := Phone.Session.next (.start allowsUnauthenticated) (.connect host discovered)

/-! ### What is asked for -/

/-- The unit is queued, or about to be. -/
def Enqueued (s : Backend.Session.Sys) (x : Arrived) : Prop :=
  s.pc net = .videoEnqueue x ∨ ∃ queued ∈ s.stream.queue, queued.toArrived = x

/-- The unit of the phone that has become this one. -/
def origin (x : Arrived) : EncodedAccessUnit := ⟨x.unit.bytes, x.unit.keyframe, x.unit.ptsMicros⟩

/-- What the PC enqueues has the committed generation and was encoded under its configuration. -/
def Encoded (p : Pair) : Prop :=
  ∀ x, Enqueued p.pc.session x → x.unit.generation = p.pc.session.stream.streamGeneration ∧
    (origin x, format p.pc.session.stream.streamConfig) ∈ p.made

/-- A unit that goes out was put out under the configuration that the encoder has by then: no change
of the format has overtaken its task. -/
def timely (p : Pair) : Action → Prop
  | .pc _ _ => True
  | .phone a => ∀ unit ∈ unitOf p.phone a, p.phone.session.videoSuspended = false →
      ∃ c ∈ p.encoder, (unit, c) ∈ p.made

instance (p : Pair) (a : Action) : Decidable (timely p a) := by
  unfold timely; split <;> infer_instance

instance (s : Client) (a : Action) : Decidable (smooth s a) := by
  unfold smooth; split <;> infer_instance

instance (p : Pair) (a : Action) : Decidable (carried p a) := by
  unfold carried; split <;> infer_instance

instance (cfg : SessionConfig) (p : Pair) (a : Action) :
    Decidable ((system cfg).enabled p a) := by
  show Decidable (enabled cfg p a)
  cases a <;> unfold enabled <;> infer_instance

end RemoteCam.Link.System
