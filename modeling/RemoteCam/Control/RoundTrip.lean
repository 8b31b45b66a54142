import RemoteCam.Control.Envelope

/-! # Building a message, then parsing it

A `Report` is a value of one of the ten kinds of message that the PC parses, with the builder and
the parser of its kind. `roundTrips`: a report that is built, encoded, decoded and parsed is as it
was, with the formats of each camera in order. The version of a `hello` is the builder's own, and
the decoder limits the number of capabilities and codecs. -/

namespace RemoteCam.Control.RoundTrip

open RemoteCam.Lib.OrderedMap RemoteCam.Control.Messages RemoteCam.Control.Builders
open RemoteCam.Control.Envelope
open RemoteCam.Cbor.Codec (Bytes Value keyLess kMaxCollectionElements kMaxNestingDepth)
open RemoteCam.Cbor.Utf8 (WellFormed)
open RemoteCam.Cbor.RoundTrip RemoteCam.Cbor.Limits

/-! ### Reports -/

/-- A value of one of the kinds of message that the PC parses. -/
inductive Report where
  | hello (value : Hello)
  | authResponse (value : AuthResponse)
  | formatAck (generation : UInt64)
  | formatReject (value : FormatReject)
  | caps (value : Caps)
  | cameraState (value : CameraState)
  | orientation (value : Orientation)
  | thermal (state : Bytes)
  | battery (value : Battery)
  | error (value : DeviceError)
  deriving DecidableEq, Repr

namespace Report

def build : Report → Message
  | hello v =>
    Builders.hello v.deviceName v.deviceId v.model v.caps v.platform v.allowUnauthenticated
  | authResponse v => Builders.authResponse v
  | formatAck generation => Builders.formatAck generation
  | formatReject v => Builders.formatReject v
  | caps v => Builders.capabilities v
  | cameraState v => Builders.cameraState v
  | orientation v => Builders.orientation v
  | thermal state => Builders.thermal state
  | battery v => Builders.battery v
  | error v => Builders.deviceError v

/-- The parser of the report's kind. -/
def parse (r : Report) (m : Message) : Option Report :=
  match r with
  | hello _ => (parseHello m).map hello
  | authResponse _ => (parseAuthResponse m).map authResponse
  | formatAck _ => (parseFormatAck m).map formatAck
  | formatReject _ => (parseFormatReject m).map formatReject
  | caps _ => (parseCaps m).map caps
  | cameraState _ => (parseCameraState m).map cameraState
  | orientation _ => (parseOrientation m).map orientation
  | thermal _ => (parseThermal m).map thermal
  | battery _ => (parseBattery m).map battery
  | error _ => (parseError m).map error

end Report

/-- The bounds of `parseFormat`. -/
def FormatBounds (format : CaptureFormat) : Prop :=
  format.width ≠ 0 ∧ format.height ≠ 0 ∧ format.fps ≠ 0 ∧ format.width ≤ 4096 ∧
    format.height ≤ 4096 ∧ format.fps ≤ 120

namespace Report

/-- What the parser of its kind asks of a value. -/
def Bounds : Report → Prop
  | hello v =>
    validDeviceId v.deviceId = true ∧ v.deviceName ≠ [] ∧ v.platform ≠ [] ∧ v.model ≠ []
  | authResponse v => v.clientNonce.length = 32 ∧ v.clientProof.length = 32
  | formatAck generation => generation ≠ 0
  | formatReject v =>
    v.generation ≠ 0 ∧ (v.code ≠ [] ∧ v.code.length ≤ 128) ∧
      (v.message ≠ [] ∧ v.message.length ≤ 1024)
  | caps v =>
    (∀ camera ∈ v.cameras, camera.id ≠ [] ∧ ∀ format ∈ camera.formats, FormatBounds format) ∧
      ∀ codec ∈ v.codecs, codec = literal "h264" ∨ codec = literal "hevc"
  | cameraState _ | orientation _ | thermal _ | battery _ | error _ => True

def texts : Report → List Bytes
  | hello v => v.deviceName :: v.deviceId :: v.platform :: v.model :: v.caps
  | authResponse _ | formatAck _ | orientation _ | battery _ => []
  | formatReject v => [v.code, v.message]
  | caps v =>
    v.cameras.flatMap (fun camera => [camera.id, camera.name, camera.position, camera.lens]) ++
      v.codecs
  | cameraState v =>
    v.deviceId.toList ++ [v.position, v.lens, v.focusMode, v.exposureMode, v.whiteBalanceMode]
  | thermal state => [state]
  | error v => [v.code, v.message]

def numbers : Report → List UInt64
  | cameraState v =>
    [v.zoom, v.focus, v.iso, v.exposureSeconds, v.exposureBias, v.whiteBalanceKelvin]
  | orientation v => [v.degrees]
  | battery v => [v.level]
  | _ => []

/-- The builder writes the version, and the decoder limits the containers that it writes. -/
def Written : Report → Prop
  | hello v => v.version = kProtocolVersion ∧ v.caps.length ≤ kMaxCollectionElements.toNat
  | caps v => v.codecs.length ≤ kMaxCollectionElements.toNat
  | _ => True

/-- The formats of every camera in order. -/
def sorted : Report → Report
  | caps v =>
    caps { v with
      cameras := v.cameras.map fun camera => { camera with formats := sortFormats camera.formats } }
  | r => r

end Report

/-! ### What the parsers find -/

section Parsers

theorem mapM_map {α β γ : Type} {write : α → β} {read : β → Option γ} {image : α → γ}
    {l : List α} (h : ∀ a ∈ l, read (write a) = some (image a)) :
    (l.map write).mapM read = some (l.map image) := by
  induction l with
  | nil => rfl
  | cons a l ih =>
    obtain ⟨ha, hl⟩ := List.forall_mem_cons.mp h
    rw [List.map_cons, List.mapM_cons, ha, ih hl]
    rfl

theorem parse_hello {v : Hello} (hversion : v.version = kProtocolVersion)
    (h : (Report.hello v).Bounds) : parseHello (Report.hello v).build = some v := by
  obtain ⟨hdeviceId, hdeviceName, hplatform, hmodel⟩ := h
  obtain ⟨version, deviceName, deviceId, platform, model, caps, allowUnauthenticated⟩ := v
  obtain rfl : version = kProtocolVersion := hversion
  dsimp only at hdeviceId hdeviceName hplatform hmodel
  have hkeys : Keys ["v", "device_name", "device_id", "platform", "model", "allow_unauthenticated",
    "caps"] := by decide
  let m := Builders.hello deviceName deviceId model caps platform allowUnauthenticated
  have hfind (key : String) (hkey : Ascii key) : find m.fields key = _ := find_puts hkeys hkey
  have hshaped : m.shaped "hello" ["v", "device_name", "device_id", "platform", "model", "caps",
      "allow_unauthenticated"] = true := shaped_makeMessage (by simp)
  have hcaps : (caps.map Value.text).mapM asText = some (caps.map id) := mapM_map fun _ _ => rfl
  rw [List.map_id] at hcaps
  show parseHello m = _
  unfold parseHello Message.unsignedInt Message.boolean Message.text unsignedAt textAt arrayAt
  rw [hshaped]
  simp (disch := decide) only [hfind]
  simp [List.lookup_cons, hdeviceId, hdeviceName, hplatform, hmodel, hcaps]

theorem parse_authResponse {v : AuthResponse} (h : (Report.authResponse v).Bounds) :
    parseAuthResponse (Builders.authResponse v) = some v := by
  obtain ⟨hshaped, hfind⟩ :
      (Builders.authResponse v).shaped "auth_response" ["client_nonce", "client_proof"] = true ∧
      ∀ key, Ascii key → find (Builders.authResponse v).fields key = _ :=
    read_makeMessage (by decide : Keys ["client_nonce", "client_proof"]) (List.Subset.refl _)
  unfold parseAuthResponse Message.bytes
  rw [hshaped]
  simp (disch := decide) only [hfind]
  simp [List.lookup_cons, h.1, h.2]

theorem parse_formatAck {generation : UInt64} (h : generation ≠ 0) :
    parseFormatAck (Builders.formatAck generation) = some generation := by
  obtain ⟨hshaped, hfind⟩ :
      (Builders.formatAck generation).shaped "format_ack" ["generation"] = true ∧
      ∀ key, Ascii key → find (Builders.formatAck generation).fields key = _ :=
    read_makeMessage (by decide : Keys ["generation"]) (List.Subset.refl _)
  unfold parseFormatAck Message.unsignedInt unsignedAt
  rw [hshaped]
  simp (disch := decide) only [hfind]
  simp [h]

theorem parse_formatReject {v : FormatReject} (h : (Report.formatReject v).Bounds) :
    parseFormatReject (Builders.formatReject v) = some v := by
  obtain ⟨hgeneration, hcode, hmessage⟩ := h
  obtain ⟨hshaped, hfind⟩ :
      (Builders.formatReject v).shaped "format_reject" ["generation", "code", "message"] = true ∧
      ∀ key, Ascii key → find (Builders.formatReject v).fields key = _ :=
    read_makeMessage (by decide : Keys ["generation", "code", "message"]) (List.Subset.refl _)
  unfold parseFormatReject Message.unsignedInt Message.text unsignedAt textAt
  rw [hshaped]
  simp (disch := decide) only [hfind]
  simp [List.lookup_cons, hgeneration, hcode, hmessage]

theorem parse_orientation {v : Orientation} (h : isfinite v.degrees = true) :
    parseOrientation (Builders.orientation v) = some v := by
  obtain ⟨hshaped, hfind⟩ :
      (Builders.orientation v).shaped "orientation" ["deg", "locked"] = true ∧
      ∀ key, Ascii key → find (Builders.orientation v).fields key = _ :=
    read_makeMessage (by decide : Keys ["deg", "locked"]) (List.Subset.refl _)
  unfold parseOrientation Message.number Message.boolean
  rw [hshaped]
  simp (disch := decide) only [hfind]
  simp [List.lookup_cons, numericDouble_double h]

theorem parse_thermal (state : Bytes) : parseThermal (Builders.thermal state) = some state := by
  obtain ⟨hshaped, hfind⟩ :
      (Builders.thermal state).shaped "thermal" ["state"] = true ∧
      ∀ key, Ascii key → find (Builders.thermal state).fields key = _ :=
    read_makeMessage (by decide : Keys ["state"]) (List.Subset.refl _)
  unfold parseThermal Message.text textAt
  rw [hshaped]
  simp (disch := decide) only [hfind]
  simp

theorem parse_battery {v : Battery} (h : isfinite v.level = true) :
    parseBattery (Builders.battery v) = some v := by
  obtain ⟨hshaped, hfind⟩ :
      (Builders.battery v).shaped "battery" ["level", "charging"] = true ∧
      ∀ key, Ascii key → find (Builders.battery v).fields key = _ :=
    read_makeMessage (by decide : Keys ["level", "charging"]) (List.Subset.refl _)
  unfold parseBattery Message.number Message.boolean
  rw [hshaped]
  simp (disch := decide) only [hfind]
  simp [List.lookup_cons, numericDouble_double h]

theorem parse_error (v : DeviceError) : parseError (Builders.deviceError v) = some v := by
  obtain ⟨hshaped, hfind⟩ :
      (Builders.deviceError v).shaped "error" ["code", "message"] = true ∧
      ∀ key, Ascii key → find (Builders.deviceError v).fields key = _ :=
    read_makeMessage (by decide : Keys ["code", "message"]) (List.Subset.refl _)
  unfold parseError Message.text textAt
  rw [hshaped]
  simp (disch := decide) only [hfind]
  simp [List.lookup_cons]

theorem parse_cameraState {v : CameraState}
    (h : ∀ x ∈ (Report.cameraState v).numbers, isfinite x = true) :
    parseCameraState (Builders.cameraState v) = some v := by
  let keys := ["device_id", "position", "lens", "zoom", "focus_mode", "focus", "exposure_mode",
    "iso", "exposure", "ev", "wb_mode", "wb", "torch", "stabilization"]
  have hkeys : Keys keys := by decide
  have hfind (key : String) (hkey : Ascii key) : find (Builders.cameraState v).fields key = _ :=
    find_puts hkeys hkey
  have hshaped : (Builders.cameraState v).shaped "camera_state" keys = true :=
    shaped_makeMessage (List.Subset.refl _)
  simp only [Report.numbers, List.forall_mem_cons] at h
  obtain ⟨deviceId⟩ := v
  unfold parseCameraState Message.number Message.boolean Message.text textAt
    Message.optionalDeviceId
  rw [hshaped]
  simp (disch := decide) only [hfind]
  cases deviceId <;> simp [List.lookup_cons, numericDouble_double, h]

/-- A 32-bit number that is widened keeps its bounds. -/
theorem bounds_toUInt64 {x bound : UInt32} (h : x ≤ bound) : x.toUInt64 ≤ bound.toUInt64 := by
  rw [UInt64.le_iff_toNat_le, UInt32.toNat_toUInt64, UInt32.toNat_toUInt64]
  exact UInt32.le_iff_toNat_le.mp h

theorem toUInt64_ne_zero {x : UInt32} (h : x ≠ 0) : x.toUInt64 ≠ 0 := by
  intro hzero
  have hnat : x.toNat = 0 := by
    rw [← UInt32.toNat_toUInt64, hzero]
    rfl
  exact h (UInt32.toNat_inj.mp hnat)

theorem find_formatFields (format : CaptureFormat) {key : String} (hkey : Ascii key) :
    find (puts (formatFields format)) key = (formatFields format).lookup key :=
  find_puts (by decide : Keys ["width", "height", "fps"]) hkey

theorem find_cameraFields (camera : CameraDescriptor) {key : String} (hkey : Ascii key) :
    find (puts (cameraFields camera)) key = (cameraFields camera).lookup key :=
  find_puts (by decide : Keys ["id", "name", "position", "lens", "formats"]) hkey

theorem parse_format {format : CaptureFormat} (h : FormatBounds format) :
    parseFormat (formatValue format) = some format := by
  have honly : onlyFields (puts (formatFields format)) ["width", "height", "fps"] = true :=
    onlyFields_puts (List.Subset.refl _)
  obtain ⟨hwidth, hheight, hfps, hwidth', hheight', hfps'⟩ := h
  have hpositive := And.intro (toUInt64_ne_zero hwidth)
    (And.intro (toUInt64_ne_zero hheight) (toUInt64_ne_zero hfps))
  have hwide : format.width.toUInt64 ≤ 4096 := bounds_toUInt64 hwidth'
  have hhigh : format.height.toUInt64 ≤ 4096 := bounds_toUInt64 hheight'
  have hfast : format.fps.toUInt64 ≤ 120 := bounds_toUInt64 hfps'
  unfold formatValue parseFormat unsignedAt
  dsimp only
  rw [honly]
  simp (disch := decide) only [find_formatFields]
  simp [formatFields, List.lookup_cons, hpositive, hwide, hhigh, hfast]

theorem parse_camera {camera : CameraDescriptor} (hid : camera.id ≠ [])
    (h : ∀ format ∈ camera.formats, FormatBounds format) :
    parseCamera (cameraValue camera) =
      some { camera with formats := sortFormats camera.formats } := by
  have honly : onlyFields (puts (cameraFields camera))
      ["id", "name", "position", "lens", "formats"] = true := onlyFields_puts (List.Subset.refl _)
  have hformats : ((sortFormats camera.formats).map formatValue).mapM parseFormat =
      some ((sortFormats camera.formats).map id) :=
    mapM_map fun format hmem => parse_format (h format ((List.mem_insertionSort _).mp hmem))
  rw [List.map_id] at hformats
  unfold cameraValue parseCamera textAt arrayAt
  dsimp only
  rw [honly]
  simp (disch := decide) only [find_cameraFields]
  simp [cameraFields, List.lookup_cons, hid, hformats]

theorem parse_caps {v : Caps} (h : (Report.caps v).Bounds) :
    (parseCaps (Builders.capabilities v)).map Report.caps = some (Report.caps v).sorted := by
  obtain ⟨hcameras, hcodecs⟩ := h
  have hkeys : Keys ["cameras", "codecs"] := by decide
  have hfind (key : String) (hkey : Ascii key) : find (Builders.capabilities v).fields key = _ :=
    find_puts hkeys hkey
  have hshaped : (Builders.capabilities v).shaped "caps" ["cameras", "codecs"] = true :=
    shaped_makeMessage (List.Subset.refl _)
  have hcameras' : (v.cameras.map cameraValue).mapM parseCamera = _ :=
    mapM_map fun camera hmem => parse_camera (hcameras camera hmem).1 (hcameras camera hmem).2
  have hcodecs' : (v.codecs.map Value.text).mapM parseCodec = some (v.codecs.map id) :=
    mapM_map fun codec hmem => if_pos (hcodecs codec hmem)
  rw [List.map_id] at hcodecs'
  unfold parseCaps arrayAt
  rw [hshaped]
  simp (disch := decide) only [hfind]
  simp [List.lookup_cons, hcameras', hcodecs', Report.sorted]

/-- **A report is parsed as it was built.** -/
theorem parse_build {r : Report} (hwritten : r.Written) (hbounds : r.Bounds)
    (hnumbers : ∀ x ∈ r.numbers, isfinite x = true) : r.parse r.build = some r.sorted := by
  cases r with
  | hello v => exact congrArg (Option.map Report.hello) (parse_hello hwritten.1 hbounds)
  | authResponse v => exact congrArg (Option.map Report.authResponse) (parse_authResponse hbounds)
  | formatAck generation =>
    exact congrArg (Option.map Report.formatAck) (parse_formatAck hbounds)
  | formatReject v => exact congrArg (Option.map Report.formatReject) (parse_formatReject hbounds)
  | caps v => exact parse_caps hbounds
  | cameraState v => exact congrArg (Option.map Report.cameraState) (parse_cameraState hnumbers)
  | orientation v =>
    exact congrArg (Option.map Report.orientation)
      (parse_orientation (hnumbers _ List.mem_cons_self))
  | thermal state => exact congrArg (Option.map Report.thermal) (parse_thermal state)
  | battery v =>
    exact congrArg (Option.map Report.battery) (parse_battery (hnumbers _ List.mem_cons_self))
  | error v => exact congrArg (Option.map Report.error) (parse_error v)

end Parsers

/-! ### The sizes of capabilities -/

theorem length_formatValue_ge (format : CaptureFormat) :
    11 ≤ (Cbor.Codec.encode (formatValue format)).length := by
  have hputs : puts (formatFields format) = [(literal "fps", .unsigned format.fps.toUInt64),
      (literal "width", .unsigned format.width.toUInt64),
      (literal "height", .unsigned format.height.toUInt64)] := by
    unfold puts formatFields
    simp only [List.foldl, put, insertOrAssign,
      (by decide : keyLess (literal "height") (literal "width") = false),
      (by decide : keyLess (literal "width") (literal "height") = true)]
    rfl
  have hfps : (literal "fps").length = 3 := by decide
  have hwidth : (literal "width").length = 5 := by decide
  have hheight : (literal "height").length = 6 := by decide
  unfold formatValue
  rw [hputs]
  simp only [Cbor.Codec.encode, Cbor.Codec.encodeEntries, List.length_append, hfps, hwidth, hheight]
  omega

theorem length_cameraValue_ge (camera : CameraDescriptor) :
    11 ≤ (Cbor.Codec.encode (cameraValue camera)).length := by
  have hfind : find (puts (cameraFields camera)) "position" = some (.text camera.position) := by
    rw [find_cameraFields camera (by decide)]
    simp [cameraFields, List.lookup_cons]
  have hentries := length_found hfind
  have hkey : (literal "position").length = 8 := by decide
  have hvalue := length_encode_pos (.text camera.position)
  have hhead := length_appendHead_pos Cbor.Codec.kMajorMap
    (.ofNat (puts (cameraFields camera)).length)
  unfold cameraValue
  rw [Cbor.Codec.encode, List.length_append]
  omega

theorem carried_format {levels : ℕ} (format : CaptureFormat) :
    Carried (levels + 1) (formatValue format) :=
  carried_puts (by decide : ∀ key ∈ ["width", "height", "fps"], Ascii key)
    (by decide : 3 ≤ kMaxCollectionElements.toNat) (by simp [formatFields])

theorem carried_camera {levels : ℕ} {camera : CameraDescriptor}
    (htexts : ∀ text ∈ [camera.id, camera.name, camera.position, camera.lens], WellFormed text)
    (hfits : (Cbor.Codec.encode (cameraValue camera)).length ≤ kMaxPayloadBytes) :
    Carried (levels + 3) (cameraValue camera) := by
  have hfind : find (puts (cameraFields camera)) "formats" =
      some (.array ((sortFormats camera.formats).map formatValue)) := by
    rw [find_cameraFields camera (by decide)]
    simp [cameraFields, List.lookup_cons]
  have hlen := length_found hfind
  have hformats : Carried (levels + 2) (.array ((sortFormats camera.formats).map formatValue)) := by
    refine carried_array (count_le_of_length ?_ ?_) ?_
    · exact List.forall_mem_map.mpr fun format _ => length_formatValue_ge format
    · unfold cameraValue at hfits
      rw [Cbor.Codec.encode, List.length_append] at hfits
      omega
    · exact List.forall_mem_map.mpr fun format _ => carried_format format
  simp only [List.forall_mem_cons] at htexts
  refine carried_puts (by decide : ∀ key ∈ ["id", "name", "position", "lens", "formats"], Ascii key)
    (by decide : 5 ≤ kMaxCollectionElements.toNat) ?_
  simp [cameraFields, carried_text, htexts, hformats]

/-! ### Reports through the codec -/

theorem carried_texts {levels : ℕ} {texts : List Bytes}
    (hlen : texts.length ≤ kMaxCollectionElements.toNat) (h : ∀ text ∈ texts, WellFormed text) :
    Carried (levels + 1) (.array (texts.map .text)) :=
  carried_array (by rwa [List.length_map])
    (List.forall_mem_map.mpr fun text hmem => carried_text (h text hmem))

theorem decode_encode_caps {v : Caps} (hwritten : (Report.caps v).Written)
    (htexts : ∀ text ∈ (Report.caps v).texts, WellFormed text)
    (hfits : (Message.encode (Builders.capabilities v)).length ≤ kMaxPayloadBytes) :
    Message.decode (Message.encode (Builders.capabilities v)) = .ok (Builders.capabilities v) := by
  have hfind : find (Builders.capabilities v).fields "cameras" =
      some (.array (v.cameras.map cameraValue)) :=
    find_puts (by decide : Keys ["cameras", "codecs"]) (by decide)
  have hcameras := (length_field_le hfind (by decide)).trans hfits
  have hcamera : ∀ camera ∈ v.cameras,
      (Cbor.Codec.encode (cameraValue camera)).length ≤ kMaxPayloadBytes := fun camera hmem => by
    have hitem := length_item_le (List.mem_map_of_mem (f := cameraValue) hmem)
    rw [Cbor.Codec.encode, List.length_append] at hcameras
    omega
  obtain ⟨hdescriptors, hcodecs⟩ := List.forall_mem_append.mp htexts
  refine decode_encode_makeMessage (by decide) (by decide : Keys ["t", "cameras", "codecs"])
    (by decide : 2 < kMaxCollectionElements.toNat) ?_ hfits
  simp only [List.forall_mem_cons]
  refine ⟨carried_array ?_ ?_, carried_texts hwritten hcodecs, (by simp)⟩
  · refine count_le_of_length ?_ hcameras
    exact List.forall_mem_map.mpr fun camera _ => length_cameraValue_ge camera
  · refine List.forall_mem_map.mpr fun camera hmem => carried_camera (fun text htext => ?_)
      (hcamera camera hmem)
    exact hdescriptors text (List.mem_flatMap.mpr ⟨camera, hmem, htext⟩)

/-- **What a report is built into comes through the codec.** -/
theorem decode_encode_build {r : Report} (hwritten : r.Written)
    (htexts : ∀ text ∈ r.texts, WellFormed text)
    (hfits : (Message.encode r.build).length ≤ kMaxPayloadBytes) :
    Message.decode (Message.encode r.build) = .ok r.build := by
  cases r with
  | hello v =>
    simp only [Report.texts, List.forall_mem_cons] at htexts
    obtain ⟨hdeviceName, hdeviceId, hplatform, hmodel, hcaps⟩ := htexts
    have harray : Carried 31 (.array (v.caps.map .text)) := carried_texts hwritten.2 hcaps
    refine decode_encode_makeMessage (by decide) (by decide : Keys ["t", "v", "device_name",
      "device_id", "platform", "model", "allow_unauthenticated", "caps"])
      (by decide : 7 < kMaxCollectionElements.toNat) ?_ hfits
    simp [carried_text, hdeviceName, hdeviceId, hplatform, hmodel, harray]
  | authResponse v =>
    exact decode_encode_makeMessage (by decide)
      (by decide : Keys ["t", "client_nonce", "client_proof"])
      (by decide : 2 < kMaxCollectionElements.toNat) (by simp) hfits
  | formatAck generation =>
    exact decode_encode_makeMessage (by decide) (by decide : Keys ["t", "generation"])
      (by decide : 1 < kMaxCollectionElements.toNat) (by simp) hfits
  | formatReject v =>
    simp only [Report.texts, List.forall_mem_cons] at htexts
    exact decode_encode_makeMessage (by decide)
      (by decide : Keys ["t", "generation", "code", "message"])
      (by decide : 3 < kMaxCollectionElements.toNat) (by simp [carried_text, htexts]) hfits
  | caps v => exact decode_encode_caps hwritten htexts hfits
  | cameraState v =>
    obtain ⟨deviceId⟩ := v
    obtain ⟨hdeviceId, hothers⟩ := List.forall_mem_append.mp htexts
    simp only [List.forall_mem_cons] at hothers
    refine decode_encode_makeMessage (by decide) (by decide : Keys ["t", "device_id", "position",
      "lens", "zoom", "focus_mode", "focus", "exposure_mode", "iso", "exposure", "ev", "wb_mode",
      "wb", "torch", "stabilization"]) (by decide : 14 < kMaxCollectionElements.toNat) ?_ hfits
    cases deviceId with
    | none => simp [carried_text, hothers]
    | some id =>
      have hid : WellFormed id := hdeviceId id (Option.mem_toList.mpr rfl)
      simp [carried_text, hothers, hid]
  | orientation v =>
    exact decode_encode_makeMessage (by decide) (by decide : Keys ["t", "deg", "locked"])
      (by decide : 2 < kMaxCollectionElements.toNat) (by simp) hfits
  | thermal state =>
    have hstate : WellFormed state := htexts state List.mem_cons_self
    exact decode_encode_makeMessage (by decide) (by decide : Keys ["t", "state"])
      (by decide : 1 < kMaxCollectionElements.toNat) (by simp [carried_text, hstate]) hfits
  | battery v =>
    exact decode_encode_makeMessage (by decide) (by decide : Keys ["t", "level", "charging"])
      (by decide : 2 < kMaxCollectionElements.toNat) (by simp) hfits
  | error v =>
    simp only [Report.texts, List.forall_mem_cons] at htexts
    exact decode_encode_makeMessage (by decide) (by decide : Keys ["t", "code", "message"])
      (by decide : 2 < kMaxCollectionElements.toNat) (by simp [carried_text, htexts]) hfits

/-! ### The order of formats -/

theorem sortFormats_perm (formats : List CaptureFormat) : (sortFormats formats).Perm formats :=
  List.perm_insertionSort _ formats

theorem formatLess_total (lhs rhs : CaptureFormat) :
    formatLess rhs lhs = false ∨ formatLess lhs rhs = false := by
  unfold formatLess
  grind

theorem formatLess_trans {a b c : CaptureFormat} (h : formatLess b a = false)
    (h' : formatLess c b = false) : formatLess c a = false := by
  unfold formatLess at *
  grind

theorem sortFormats_sorted (formats : List CaptureFormat) :
    (sortFormats formats).Pairwise fun lhs rhs => formatLess rhs lhs = false := by
  have : Std.Total fun lhs rhs => formatLess rhs lhs = false := ⟨formatLess_total⟩
  have : IsTrans CaptureFormat fun lhs rhs => formatLess rhs lhs = false :=
    ⟨fun _ _ _ => formatLess_trans⟩
  exact List.pairwise_insertionSort _ formats

/-! ### The round trips -/

/-- Decoded and parsed, the report is as it was, with formats in order. -/
def Report.RoundTrips (r : Report) : Prop :=
  ∀ out : Message,
    (Message.decodeInto out (Message.encode r.build)).1 = none ∧
    r.parse (Message.decodeInto out (Message.encode r.build)).2 = some r.sorted

/-- A value within the bounds of its parser, with well-formed texts and finite numbers, and with a
message that is not too large. -/
structure Report.Valid (r : Report) : Prop where
  bounds : r.Bounds
  texts : ∀ text ∈ r.texts, WellFormed text
  numbers : ∀ x ∈ r.numbers, isfinite x = true
  fits : (Message.encode r.build).length ≤ kMaxPayloadBytes

def Message.RoundTrips (m : Message) : Prop :=
  ∀ out : Message, Message.decodeInto out (Message.encode m) = (none, m)

/-- A message whose fields the codec carries, besides `t`. -/
structure Message.Valid (m : Message) : Prop where
  type : WellFormed m.type
  fields : Carried kMaxNestingDepth (.map m.fields)
  count : m.fields.length < kMaxCollectionElements.toNat
  new : ∀ entry ∈ m.fields, entry.1 ≠ kTypeKey
  fits : (Message.encode m).length ≤ kMaxPayloadBytes

/-- **Round trips.** What the builders write is parsed as it was, a message is decoded as it was
encoded, and a decoding that fails leaves the output alone. -/
theorem roundTrips :
    (∀ r : Report, r.Valid → r.Written → r.RoundTrips) ∧
    (∀ formats, (sortFormats formats).Perm formats ∧
      (sortFormats formats).Pairwise fun lhs rhs => formatLess rhs lhs = false) ∧
    (∀ m : Message, Message.Valid m → Message.RoundTrips m) ∧
    ∀ out data, (Message.decodeInto out data).1 ≠ none → (Message.decodeInto out data).2 = out := by
  refine ⟨fun r h hwritten out => ?_, fun formats => ?_, fun m h out => ?_, fun out data => ?_⟩
  · rw [decodeInto_eq, decode_encode_build hwritten h.texts h.fits]
    exact ⟨rfl, parse_build hwritten h.bounds h.numbers⟩
  · exact ⟨sortFormats_perm formats, sortFormats_sorted formats⟩
  · rw [decodeInto_eq, decode_encode_message h.type h.count h.fields h.new h.fits]
  · rw [decodeInto_eq]
    cases Message.decode data with
    | ok m => exact fun h => absurd rfl h
    | error e => exact fun _ => rfl

/-- Two formats out of order, one of them twice. -/
def capsSample : Caps where
  cameras := [⟨literal "0", literal "Back", literal "back", literal "wide",
    [⟨1920, 1080, 60⟩, ⟨1280, 720, 30⟩, ⟨1920, 1080, 60⟩]⟩]
  codecs := [literal "hevc", literal "h264"]

theorem valid_capsSample : (Report.caps capsSample).Valid where
  bounds := by
    refine ⟨?_, by decide⟩
    simp only [capsSample, List.forall_mem_singleton]
    exact ⟨by decide, by unfold FormatBounds; decide⟩
  texts := by
    simp only [Report.texts, capsSample, List.flatMap_cons, List.flatMap_nil, List.append_nil,
      List.cons_append, List.nil_append, List.forall_mem_cons]
    refine ⟨?_, ?_, ?_, ?_, ?_, ?_, nofun⟩ <;> exact wellFormed_literal (by decide)
  numbers := nofun
  fits := by decide +kernel

/-- A message of no known kind. -/
def messageSample : Message :=
  ⟨literal "note",
    [(literal "a", .array [.negative (-1), .null]), (literal "body", .text [0xC3, 0xA9])]⟩

theorem valid_messageSample : Message.Valid messageSample where
  type := wellFormed_literal (by decide)
  fields := by
    refine @carried_map 31 _ (by simp [Sorted, messageSample]; decide) (by decide) ?_ ?_
    · simp only [messageSample, List.forall_mem_cons]
      exact ⟨wellFormed_literal (by decide), wellFormed_literal (by decide), nofun⟩
    · simp only [messageSample, List.forall_mem_cons]
      refine ⟨carried_array (by decide) ?_, carried_text ⟨['é'], by decide⟩, nofun⟩
      simp only [List.forall_mem_cons]
      exact ⟨.of_leaf rfl trivial (by decide : (-1 : Int64) < 0) rfl, carried_null, nofun⟩
  count := by decide
  new := by decide
  fits := by decide +kernel

theorem roundTrips_samples :
    (Report.caps capsSample).RoundTrips ∧ Message.RoundTrips messageSample ∧
      (Message.decodeInto messageSample [0xA0]).2 = messageSample :=
  ⟨roundTrips.1 _ valid_capsSample (by decide : 2 ≤ kMaxCollectionElements.toNat),
    roundTrips.2.2.1 _ valid_messageSample, roundTrips.2.2.2 _ _ (by decide)⟩

/-- A phone with one more than the decoder's limit of capabilities, all empty. -/
def crowdedHello : Hello where
  version := kProtocolVersion
  deviceName := literal "iPhone"
  deviceId := literal "00112233445566ff"
  platform := literal "ios"
  model := literal "iPhone15,2"
  caps := List.replicate 100001 []
  allowUnauthenticated := false

theorem payload_crowdedHello : Message.payload (Report.hello crowdedHello).build =
    .map ([(literal "t", .text (literal "hello")), (literal "v", .unsigned kProtocolVersion)] ++
      (literal "caps", .array (List.replicate 100001 (.text []))) ::
        [(literal "model", .text (literal "iPhone15,2")),
          (literal "platform", .text (literal "ios")),
          (literal "device_id", .text (literal "00112233445566ff")),
          (literal "device_name", .text (literal "iPhone")),
          (literal "allow_unauthenticated", .boolean false)]) := by
  unfold Report.build Builders.hello makeMessage Message.payload puts
  simp +decide only [List.foldl, put, insertOrAssign, if_true, if_false, kTypeKey, crowdedHello,
    List.map_replicate]
  rfl

theorem valid_crowdedHello : (Report.hello crowdedHello).Valid where
  bounds := by
    refine ⟨?_, ?_, ?_, ?_⟩ <;> decide
  texts := by
    simp only [Report.texts, crowdedHello, List.forall_mem_cons]
    refine ⟨?_, ?_, ?_, ?_, fun text h => ?_⟩
    · exact wellFormed_literal (by decide)
    · exact wellFormed_literal (by decide)
    · exact wellFormed_literal (by decide)
    · exact wellFormed_literal (by decide)
    · rw [List.eq_of_mem_replicate h]
      exact ⟨[], rfl⟩
  numbers := nofun
  fits := by
    unfold Message.encode
    rw [payload_crowdedHello]
    exact (length_crowded _ _ _ _ _).trans (by decide +kernel)

theorem not_roundTrips_crowdedHello : ¬ (Report.hello crowdedHello).RoundTrips := by
  intro h
  refine not_decoded payload_crowdedHello (by decide) (by decide) (by decide) ?_ ?_ ?_ ⟨[], []⟩
    (h ⟨[], []⟩).1
  · simp [Sorted]
    decide
  · simp only [List.cons_append, List.nil_append, List.forall_mem_cons]
    refine ⟨⟨?_, by decide⟩, ⟨?_, by decide⟩, ⟨?_, by decide⟩, nofun⟩ <;>
      exact wellFormed_literal (by decide)
  · simp only [List.forall_mem_cons]
    have hlen : (literal "hello").length < 2 ^ 64 := by decide
    refine ⟨⟨.intro hlen nofun, carried_text (wellFormed_literal (by decide))⟩,
      ⟨.intro trivial nofun, carried_unsigned _⟩, nofun⟩

/-- A phone without cameras and one more than the decoder's limit of codecs. -/
def crowdedCaps : Caps := ⟨[], List.replicate 100001 (literal "h264")⟩

theorem payload_crowdedCaps : Message.payload (Report.caps crowdedCaps).build =
    .map ([(literal "t", .text (literal "caps"))] ++
      (literal "codecs", .array (List.replicate 100001 (.text (literal "h264")))) ::
        [(literal "cameras", .array [])]) := by
  unfold Report.build Builders.capabilities makeMessage Message.payload puts
  simp +decide only [List.foldl, put, insertOrAssign, if_true, if_false, kTypeKey, crowdedCaps,
    List.map_replicate]
  rfl

theorem valid_crowdedCaps : (Report.caps crowdedCaps).Valid where
  bounds := ⟨nofun, fun codec h => .inl (List.eq_of_mem_replicate h)⟩
  texts := fun text h => by
    rw [List.eq_of_mem_replicate h]
    exact wellFormed_literal (by decide)
  numbers := nofun
  fits := by
    unfold Message.encode
    rw [payload_crowdedCaps]
    exact (length_crowded _ _ _ _ _).trans (by decide +kernel)

theorem not_roundTrips_crowdedCaps : ¬ (Report.caps crowdedCaps).RoundTrips := by
  intro h
  refine not_decoded payload_crowdedCaps (by decide) (by decide) (by decide)
    (List.pairwise_singleton _ _) ?_ ?_ ⟨[], []⟩ (h ⟨[], []⟩).1
  · simp only [List.cons_append, List.nil_append, List.forall_mem_cons]
    refine ⟨⟨?_, by decide⟩, ⟨?_, by decide⟩, nofun⟩ <;> exact wellFormed_literal (by decide)
  · simp only [List.forall_mem_cons]
    have hlen : (literal "caps").length < 2 ^ 64 := by decide
    exact ⟨⟨.intro hlen nofun, carried_text (wellFormed_literal (by decide))⟩, nofun⟩

/-- The phone of a later version. -/
def laterHello : Hello where
  version := 2
  deviceName := literal "iPhone"
  deviceId := literal "00112233445566ff"
  platform := literal "ios"
  model := literal "iPhone15,2"
  caps := []
  allowUnauthenticated := false

theorem valid_laterHello : (Report.hello laterHello).Valid where
  bounds := by
    refine ⟨?_, ?_, ?_, ?_⟩ <;> decide
  texts := by
    simp only [Report.texts, laterHello, List.forall_mem_cons]
    refine ⟨?_, ?_, ?_, ?_, nofun⟩ <;> exact wellFormed_literal (by decide)
  numbers := nofun
  fits := by decide +kernel

/-- It is read as one of this version. -/
theorem not_roundTrips_laterHello : ¬ (Report.hello laterHello).RoundTrips := by
  intro h
  have hread := (h ⟨[], []⟩).2
  revert hread
  decide +kernel

/-- A text that is not well-formed. -/
def malformedSample : Message := ⟨literal "note", [(literal "body", .text [0xFF])]⟩

/-- **The claim without the conditions**: the version of a hello is not written, more items than the
decoder takes are, and so is a text that it does not take. -/
theorem not_roundTrips_samples :
    ((Report.hello laterHello).Valid ∧ ¬ (Report.hello laterHello).RoundTrips) ∧
    ((Report.hello crowdedHello).Valid ∧ ¬ (Report.hello crowdedHello).RoundTrips) ∧
    ((Report.caps crowdedCaps).Valid ∧ ¬ (Report.caps crowdedCaps).RoundTrips) ∧
    ((∀ entry ∈ malformedSample.fields, entry.1 ≠ kTypeKey) ∧
      ¬ Message.RoundTrips malformedSample) := by
  refine ⟨⟨valid_laterHello, not_roundTrips_laterHello⟩,
    ⟨valid_crowdedHello, not_roundTrips_crowdedHello⟩,
    ⟨valid_crowdedCaps, not_roundTrips_crowdedCaps⟩, by decide, fun h => ?_⟩
  have hnone := congrArg Prod.fst (h malformedSample)
  revert hnone
  decide +kernel

end RemoteCam.Control.RoundTrip
