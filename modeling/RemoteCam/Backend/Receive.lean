import RemoteCam.Backend.Session
import RemoteCam.Control.Messages
import RemoteCam.Security.Protector
import RemoteCam.Wire.Codec

/-! # From a frame to a step

`onFrame` on the frame itself: the envelope is opened, the channel and the flags are checked, and a
control payload is decoded and parsed. The result is what the session's machine receives. What the
trust policy or the session security answers is the `Judge`. -/

namespace RemoteCam.Backend.Receive

open RemoteCam.Backend.Session RemoteCam.Control.Messages
open RemoteCam.Security.Protector (Crypto SessionProtector unprotectControl unprotectMedia)
open RemoteCam.Wire.Codec (Frame kKeyframe kEncrypted kEndOfFragment)

def kControl : UInt8 := 0
def kVideo : UInt8 := 1
def kAudio : UInt8 := 2
def kStats : UInt8 := 3

/-- A frame after the envelope: refused, not looked at, or with its plaintext. -/
inductive Opened where
  | violation
  | ignored
  | frame (f : Frame)
  deriving DecidableEq, Repr

/-- The receiving end: the primitives, the setting, the clock's answer and the protector. -/
structure Receiver where
  crypto : Crypto
  encryptMedia : Bool
  expired : Bool
  protector : Option SessionProtector

/-- The plaintext of an envelope, by channel; `none` is an error of the protector. -/
def plaintext (rx : Receiver) (p : SessionProtector) (f : Frame) :
    Option (List UInt8 × SessionProtector) :=
  let control := unprotectControl rx.crypto rx.expired p f.channel f.flags f.ptsMicros f.payload
  let media := unprotectMedia rx.crypto rx.expired p f.channel f.flags f.ptsMicros f.payload
  if f.channel = kControl then control.toOption
  else if f.channel = kVideo then
    if rx.encryptMedia then media.toOption
    else if f.flags &&& kEncrypted = 0 then some (f.payload, p)
    else none
  else if f.channel = kStats then if rx.encryptMedia then media.toOption else control.toOption
  else none

/-- `onFrame` up to the check of the channel. -/
def unwrap (rx : Receiver) (f : Frame) : Opened × Option SessionProtector :=
  if f.flags &&& kEndOfFragment ≠ 0 then (.violation, rx.protector)
  else
    match rx.protector with
    | some p =>
      if f.channel = kAudio then (.ignored, some p)
      else
        match plaintext rx p f with
        | none => (.violation, some p)
        | some (payload, p) =>
          (.frame { f with payload, flags := f.flags &&& ~~~kEncrypted }, some p)
    | none =>
      if f.flags &&& kEncrypted ≠ 0 then (.violation, none) else (.frame f, none)

/-! ### Control messages -/

/-- The answers of the trust policy or the session security to a well-formed handshake message. -/
structure Judge where
  hello : Hello → HelloVerdict
  auth : AuthResponse → Bool

def isPcToPhoneMessage (type : List UInt8) : Bool :=
  ["server_info", "ready", "set_format", "set_camera", "set_control", "request_keyframe",
    "set_preview", "stats", "auth_challenge", "auth_confirm"].any fun name => type = literal name

def finiteCameraState (state : CameraState) : Bool :=
  isfinite state.zoom && isfinite state.focus && isfinite state.iso &&
    isfinite state.exposureSeconds && isfinite state.exposureBias &&
    isfinite state.whiteBalanceKelvin

/-- Whether a message of a type the phone sends has the shape of its type; `none` is a type the
phone does not send. -/
def shape (m : Message) : Option Bool :=
  if m.type = literal "hello" then some (parseHello m).isSome
  else if m.type = literal "auth_response" then some (parseAuthResponse m).isSome
  else if m.type = literal "format_ack" then some (parseFormatAck m).isSome
  else if m.type = literal "format_reject" then some (parseFormatReject m).isSome
  else if m.type = literal "caps" then some (parseCaps m).isSome
  else if m.type = literal "stream_start" then some m.fields.isEmpty
  else if m.type = literal "orientation" then
    some ((parseOrientation m).any fun o => isfinite o.degrees)
  else if m.type = literal "thermal" then
    some ((parseThermal m).any fun state =>
      ["nominal", "fair", "serious", "critical"].any fun name => state = literal name)
  else if m.type = literal "battery" then
    some ((parseBattery m).any fun b =>
      isfinite b.level && !isNegative b.level && !exceedsOne b.level)
  else if m.type = literal "camera_state" then some ((parseCameraState m).any finiteCameraState)
  else if m.type = literal "error" then some (parseError m).isSome
  else none

def deviceText (id : List UInt8) : String := .ofList (id.map fun c => .ofNat c.toNat)

def helloMessage (judge : Judge) (m : Message) : ControlMessage :=
  match parseHello m with
  | none => .hello "" .refused
  | some h =>
    .hello (deviceText h.deviceId) (if h.version = kProtocolVersion then judge.hello h else .refused)

def authMessage (judge : Judge) (m : Message) : ControlMessage :=
  match parseAuthResponse m with
  | none => .authResponse .malformed
  | some r => .authResponse (if judge.auth r then .accepted else .rejected)

/-- What `handleControl` does with a message, by its type. -/
def controlMessage (judge : Judge) (m : Message) : ControlMessage :=
  if m.type = literal "hello" then helloMessage judge m
  else if m.type = literal "auth_response" then authMessage judge m
  else if isPcToPhoneMessage m.type then .pcToPhone
  else if m.type = literal "format_ack" then .formatAck ((parseFormatAck m).map (·.toNat))
  else if m.type = literal "format_reject" then
    .formatReject ((parseFormatReject m).map (·.generation.toNat))
  else if m.type = literal "stream_start" then .streamStart m.fields.isEmpty
  else
    match shape m with
    | some wellFormed => .progress wellFormed
    | none => .unknown

def isKeyframe (f : Frame) : Bool := f.flags &&& kKeyframe ≠ 0

/-- `onFrame` after the envelope. -/
def inbound (judge : Judge) : Opened → Inbound
  | .violation => .violation
  | .ignored => .ignored
  | .frame f =>
    if f.channel ≠ kVideo ∧ isKeyframe f then .violation
    else if f.channel = kAudio then .ignored
    else if f.channel = kVideo then .video ⟨isKeyframe f, f.payload, f.ptsMicros.toNat⟩
    else if f.channel = kControl then
      match Message.decode f.payload with
      | .error _ => .undecodable
      | .ok m => .control (controlMessage judge m)
    else .violation

end RemoteCam.Backend.Receive
