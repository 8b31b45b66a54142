import Mathlib.Data.List.Sort
import RemoteCam.Control.Messages
import RemoteCam.Lib.OrderedMap

/-! # The messages of the phone, as they are built

The builders fill a message with `put`, key by key; `Message.encode` puts the type under `t` and
writes the map. -/

namespace RemoteCam.Control.Builders

open RemoteCam.Lib.OrderedMap RemoteCam.Control.Messages
open RemoteCam.Cbor.Codec (Bytes Value keyLess)

/-! ### The envelope -/

def put (map : Map) (key : String) (value : Value) : Map :=
  insertOrAssign keyLess (literal key) value map

/-- The `put`s of a builder, one after the other. -/
@[irreducible] def puts (entries : List (String × Value)) : Map :=
  entries.foldl (fun map entry => put map entry.1 entry.2) []

def makeMessage (type : String) (entries : List (String × Value)) : Message :=
  ⟨literal type, puts entries⟩

/-- The map that is written: `t` comes last, so it wins over a field of that name. -/
def Message.payload (m : Message) : Value :=
  .map (insertOrAssign keyLess kTypeKey (.text m.type) m.fields)

def Message.encode (m : Message) : Bytes := Cbor.Codec.encode (Message.payload m)

/-- `Message::decode` with what it leaves in `out`. -/
def Message.decodeInto (out : Message) (data : Bytes) : Option Error × Message :=
  if data.length > kMaxPayloadBytes then (some .payloadTooLarge, out)
  else
    match Cbor.Codec.decode data with
    | .error e => (some (.malformedCbor e), out)
    | .ok (.map map) =>
      match find map "t" with
      | some (.text type) =>
        let out := { out with type }
        let out := { out with fields := map }
        (none, { out with fields := out.fields.filter fun entry => entry.1 ≠ kTypeKey })
      | _ => (some .missingType, out)
    | .ok _ => (some .notAMap, out)

/-! ### The builders -/

/-- It writes its own version. -/
def hello (deviceName deviceId model : Bytes) (caps : List Bytes) (platform : Bytes)
    (allowUnauthenticated : Bool) : Message :=
  makeMessage "hello"
    [("v", .unsigned kProtocolVersion), ("device_name", .text deviceName),
      ("device_id", .text deviceId), ("platform", .text platform), ("model", .text model),
      ("allow_unauthenticated", .boolean allowUnauthenticated), ("caps", .array (caps.map .text))]

def authResponse (value : AuthResponse) : Message :=
  makeMessage "auth_response"
    [("client_nonce", .bytes value.clientNonce), ("client_proof", .bytes value.clientProof)]

def formatAck (generation : UInt64) : Message :=
  makeMessage "format_ack" [("generation", .unsigned generation)]

def formatReject (value : FormatReject) : Message :=
  makeMessage "format_reject"
    [("generation", .unsigned value.generation), ("code", .text value.code),
      ("message", .text value.message)]

def orientation (value : Orientation) : Message :=
  makeMessage "orientation" [("deg", .double value.degrees), ("locked", .boolean value.locked)]

def thermal (state : Bytes) : Message := makeMessage "thermal" [("state", .text state)]

def battery (value : Battery) : Message :=
  makeMessage "battery" [("level", .double value.level), ("charging", .boolean value.charging)]

def cameraState (value : CameraState) : Message :=
  makeMessage "camera_state"
    [("device_id", (value.deviceId.map .text).getD .null), ("position", .text value.position),
      ("lens", .text value.lens), ("zoom", .double value.zoom),
      ("focus_mode", .text value.focusMode), ("focus", .double value.focus),
      ("exposure_mode", .text value.exposureMode), ("iso", .double value.iso),
      ("exposure", .double value.exposureSeconds), ("ev", .double value.exposureBias),
      ("wb_mode", .text value.whiteBalanceMode), ("wb", .double value.whiteBalanceKelvin),
      ("torch", .boolean value.torch), ("stabilization", .boolean value.stabilization)]

def deviceError (value : DeviceError) : Message :=
  makeMessage "error" [("code", .text value.code), ("message", .text value.message)]

/-- The order of `capabilities`: width, height, rate. -/
def formatLess (lhs rhs : CaptureFormat) : Bool :=
  if lhs.width ≠ rhs.width then lhs.width < rhs.width
  else if lhs.height ≠ rhs.height then lhs.height < rhs.height
  else lhs.fps < rhs.fps

/-- `std::sort`; formats that are equivalent are equal. -/
def sortFormats (formats : List CaptureFormat) : List CaptureFormat :=
  formats.insertionSort fun lhs rhs => formatLess rhs lhs = false

def formatFields (format : CaptureFormat) : List (String × Value) :=
  [("width", .unsigned format.width.toUInt64), ("height", .unsigned format.height.toUInt64),
    ("fps", .unsigned format.fps.toUInt64)]

def formatValue (format : CaptureFormat) : Value := .map (puts (formatFields format))

def cameraFields (descriptor : CameraDescriptor) : List (String × Value) :=
  [("id", .text descriptor.id), ("name", .text descriptor.name),
    ("position", .text descriptor.position), ("lens", .text descriptor.lens),
    ("formats", .array ((sortFormats descriptor.formats).map formatValue))]

def cameraValue (descriptor : CameraDescriptor) : Value := .map (puts (cameraFields descriptor))

def capabilities (value : Caps) : Message :=
  makeMessage "caps"
    [("cameras", .array (value.cameras.map cameraValue)),
      ("codecs", .array (value.codecs.map .text))]

end RemoteCam.Control.Builders
