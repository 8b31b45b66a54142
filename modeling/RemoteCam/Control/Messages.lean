import RemoteCam.Cbor.Codec

/-! # Control messages

The envelope of a control payload, one CBOR map with the type under `t`, and the parsers of what the
phone sends. A parser takes exactly its own fields: `onlyFields` refuses every other. Texts are
their bytes, as in the codec, and a double is its 64 bits. -/

namespace RemoteCam.Control.Messages

open RemoteCam.Cbor.Codec (Bytes Value dyadicBits)

/-- A text literal of the source. -/
def literal (s : String) : Bytes := s.toList.map fun c => c.val.toUInt8

abbrev Map := List (Bytes × Value)

def kTypeKey : Bytes := literal "t"

def kMaxPayloadBytes : ℕ := 1024 * 1024

def kProtocolVersion : UInt64 := 1

/-! ### Numbers -/

/-- An integer as the nearest double, ties to even. -/
def doubleOfNat (sign n : ℕ) : UInt64 :=
  if n < 2 ^ 53 then dyadicBits sign n 0
  else
    let e := n.log2 - 52
    let q := n >>> e
    let r := n - (q <<< e)
    let half := 1 <<< (e - 1)
    dyadicBits sign (if r > half ∨ r = half ∧ q % 2 = 1 then q + 1 else q) e

example : doubleOfNat 0 (2 ^ 53 + 3) = 0x4340000000000002 := by decide

def isfinite (bits : UInt64) : Bool := bits >>> 52 &&& 0x7FF ≠ 0x7FF

/-- `x < 0.0`, for a finite `x`. -/
def isNegative (bits : UInt64) : Bool := bits > 0x8000000000000000

/-- `x > 1.0`, for a finite `x`. -/
def exceedsOne (bits : UInt64) : Bool := bits > 0x3FF0000000000000 && bits < 0x8000000000000000

/-- `Value::numericDouble`. -/
def numericDouble : Value → Option UInt64
  | .double bits => if isfinite bits then some bits else none
  | .unsigned v => some (doubleOfNat 0 v.toNat)
  | .negative v => some (doubleOfNat (if v < 0 then 1 else 0) v.toInt.natAbs)
  | _ => none

/-! ### The envelope -/

inductive Error where
  | payloadTooLarge
  | malformedCbor (error : Cbor.Codec.Error)
  | notAMap
  | missingType
  deriving DecidableEq, Repr

/-- `fields` never contains `t`. -/
structure Message where
  type : Bytes
  fields : Map
  deriving Repr

def find (map : Map) (key : String) : Option Value := map.lookup (literal key)

/-- The size is checked before anything is decoded. -/
def Message.decode (data : Bytes) : Except Error Message :=
  if data.length > kMaxPayloadBytes then .error .payloadTooLarge
  else
    match Cbor.Codec.decode data with
    | .error e => .error (.malformedCbor e)
    | .ok (.map map) =>
      match find map "t" with
      | some (.text type) => .ok ⟨type, map.filter fun entry => entry.1 ≠ kTypeKey⟩
      | _ => .error .missingType
    | .ok _ => .error .notAMap

def textAt (map : Map) (key : String) : Option Bytes :=
  match find map key with
  | some (.text v) => some v
  | _ => none

def unsignedAt (map : Map) (key : String) : Option UInt64 :=
  match find map key with
  | some (.unsigned v) => some v
  | _ => none

def arrayAt (map : Map) (key : String) : Option (List Value) :=
  match find map key with
  | some (.array items) => some items
  | _ => none

def onlyFields (map : Map) (allowed : List String) : Bool :=
  map.all fun entry => allowed.any fun key => entry.1 = literal key

def Message.text (m : Message) (key : String) : Option Bytes := textAt m.fields key

def Message.bytes (m : Message) (key : String) : Option Bytes :=
  match find m.fields key with
  | some (.bytes v) => some v
  | _ => none

def Message.unsignedInt (m : Message) (key : String) : Option UInt64 := unsignedAt m.fields key

def Message.boolean (m : Message) (key : String) : Option Bool :=
  match find m.fields key with
  | some (.boolean v) => some v
  | _ => none

def Message.number (m : Message) (key : String) : Option UInt64 :=
  (find m.fields key).bind numericDouble

/-- The type and the field set that every parser checks first. -/
def Message.shaped (m : Message) (type : String) (allowed : List String) : Bool :=
  m.type = literal type ∧ onlyFields m.fields allowed

/-! ### The handshake -/

structure Hello where
  version : UInt64
  deviceName : Bytes
  deviceId : Bytes
  platform : Bytes
  model : Bytes
  caps : List Bytes
  allowUnauthenticated : Bool
  deriving DecidableEq, Repr

/-- 16 lowercase hexadecimal digits. -/
def validDeviceId (value : Bytes) : Bool :=
  value.length = 16 ∧ value.all fun c => (0x30 ≤ c ∧ c ≤ 0x39) ∨ (0x61 ≤ c ∧ c ≤ 0x66)

def asText : Value → Option Bytes
  | .text v => some v
  | _ => none

def parseHello (m : Message) : Option Hello := do
  guard (m.shaped "hello" ["v", "device_name", "device_id", "platform", "model", "caps",
    "allow_unauthenticated"])
  let version ← m.unsignedInt "v"
  let deviceId ← m.text "device_id"
  guard (validDeviceId deviceId)
  let deviceName ← m.text "device_name"
  guard (deviceName ≠ [])
  let platform ← m.text "platform"
  guard (platform ≠ [])
  let model ← m.text "model"
  guard (model ≠ [])
  -- absent or no boolean reads as false
  let allowUnauthenticated := (m.boolean "allow_unauthenticated").getD false
  let caps ← (← arrayAt m.fields "caps").mapM asText
  pure { version, deviceName, deviceId, platform, model, caps, allowUnauthenticated }

structure AuthResponse where
  clientNonce : Bytes
  clientProof : Bytes
  deriving DecidableEq, Repr

def parseAuthResponse (m : Message) : Option AuthResponse := do
  guard (m.shaped "auth_response" ["client_nonce", "client_proof"])
  let clientNonce ← m.bytes "client_nonce"
  guard (clientNonce.length = 32)
  let clientProof ← m.bytes "client_proof"
  guard (clientProof.length = 32)
  pure { clientNonce, clientProof }

/-! ### Format changes -/

def parseFormatAck (m : Message) : Option UInt64 := do
  guard (m.shaped "format_ack" ["generation"])
  let generation ← m.unsignedInt "generation"
  guard (generation ≠ 0)
  pure generation

structure FormatReject where
  generation : UInt64
  code : Bytes
  message : Bytes
  deriving DecidableEq, Repr

def parseFormatReject (m : Message) : Option FormatReject := do
  guard (m.shaped "format_reject" ["generation", "code", "message"])
  let generation ← m.unsignedInt "generation"
  guard (generation ≠ 0)
  let code ← m.text "code"
  guard (code ≠ [] ∧ code.length ≤ 128)
  let message ← m.text "message"
  guard (message ≠ [] ∧ message.length ≤ 1024)
  pure { generation, code, message }

/-! ### Telemetry -/

structure Orientation where
  degrees : UInt64
  locked : Bool
  deriving DecidableEq, Repr

def parseOrientation (m : Message) : Option Orientation := do
  guard (m.shaped "orientation" ["deg", "locked"])
  let degrees ← m.number "deg"
  pure { degrees, locked := (m.boolean "locked").getD false }

def parseThermal (m : Message) : Option Bytes := do
  guard (m.shaped "thermal" ["state"])
  m.text "state"

structure Battery where
  level : UInt64
  charging : Bool
  deriving DecidableEq, Repr

def parseBattery (m : Message) : Option Battery := do
  guard (m.shaped "battery" ["level", "charging"])
  let level ← m.number "level"
  pure { level, charging := (m.boolean "charging").getD false }

structure CameraState where
  deviceId : Option Bytes
  position : Bytes
  lens : Bytes
  zoom : UInt64
  focusMode : Bytes
  focus : UInt64
  exposureMode : Bytes
  iso : UInt64
  exposureSeconds : UInt64
  exposureBias : UInt64
  whiteBalanceMode : Bytes
  whiteBalanceKelvin : UInt64
  torch : Bool
  stabilization : Bool
  deriving DecidableEq, Repr

/-- An absent or null `device_id` is none. -/
def Message.optionalDeviceId (m : Message) : Option (Option Bytes) :=
  match find m.fields "device_id" with
  | none | some .null => some none
  | some (.text id) => some (some id)
  | some _ => none

def parseCameraState (m : Message) : Option CameraState := do
  guard (m.shaped "camera_state" ["device_id", "position", "lens", "zoom", "focus_mode", "focus",
    "exposure_mode", "iso", "exposure", "ev", "wb_mode", "wb", "torch", "stabilization"])
  let deviceId ← m.optionalDeviceId
  let position ← m.text "position"
  let lens ← m.text "lens"
  let zoom ← m.number "zoom"
  let focusMode ← m.text "focus_mode"
  let focus ← m.number "focus"
  let exposureMode ← m.text "exposure_mode"
  let iso ← m.number "iso"
  let exposureSeconds ← m.number "exposure"
  let exposureBias ← m.number "ev"
  let whiteBalanceMode ← m.text "wb_mode"
  let whiteBalanceKelvin ← m.number "wb"
  let torch ← m.boolean "torch"
  let stabilization := (m.boolean "stabilization").getD false
  pure { deviceId, position, lens, zoom, focusMode, focus, exposureMode, iso, exposureSeconds,
         exposureBias, whiteBalanceMode, whiteBalanceKelvin, torch, stabilization }

structure DeviceError where
  code : Bytes
  message : Bytes
  deriving DecidableEq, Repr

def parseError (m : Message) : Option DeviceError := do
  guard (m.shaped "error" ["code", "message"])
  let code ← m.text "code"
  let message ← m.text "message"
  pure { code, message }

/-! ### Capabilities -/

structure CaptureFormat where
  width : UInt32
  height : UInt32
  fps : UInt32
  deriving DecidableEq, Repr

structure CameraDescriptor where
  id : Bytes
  name : Bytes
  position : Bytes
  lens : Bytes
  formats : List CaptureFormat
  deriving DecidableEq, Repr

structure Caps where
  cameras : List CameraDescriptor
  codecs : List Bytes
  deriving DecidableEq, Repr

def parseFormat : Value → Option CaptureFormat
  | .map format => do
    guard (onlyFields format ["width", "height", "fps"])
    let width ← unsignedAt format "width"
    let height ← unsignedAt format "height"
    let fps ← unsignedAt format "fps"
    guard (width ≠ 0 ∧ height ≠ 0 ∧ fps ≠ 0 ∧ width ≤ 4096 ∧ height ≤ 4096 ∧ fps ≤ 120)
    pure { width := width.toUInt32, height := height.toUInt32, fps := fps.toUInt32 }
  | _ => none

def parseCamera : Value → Option CameraDescriptor
  | .map camera => do
    guard (onlyFields camera ["id", "name", "position", "lens", "formats"])
    let id ← textAt camera "id"
    guard (id ≠ [])
    let name ← textAt camera "name"
    let position ← textAt camera "position"
    let lens ← textAt camera "lens"
    let formats ← (← arrayAt camera "formats").mapM parseFormat
    pure { id, name, position, lens, formats }
  | _ => none

def parseCodec : Value → Option Bytes
  | .text name => if name = literal "h264" ∨ name = literal "hevc" then some name else none
  | _ => none

def parseCaps (m : Message) : Option Caps := do
  guard (m.shaped "caps" ["cameras", "codecs"])
  let cameras ← (← arrayAt m.fields "cameras").mapM parseCamera
  let codecs ← (← arrayAt m.fields "codecs").mapM parseCodec
  pure { cameras, codecs }

end RemoteCam.Control.Messages
