import RemoteCam.Backend.Receive
import RemoteCam.Control.Capabilities
import RemoteCam.Control.Commands
import RemoteCam.Control.Numbers

/-! # The reports of the phone

`ControlMessage` builds what the phone tells the PC. The PC's library has builders of its own for the
same messages, which its emulator of a phone uses.

`report_crosses`: both write the same bytes. The PC takes exactly the reports whose numbers are
finite and whose texts and sizes are within its bounds, and it reads what the phone meant. -/

namespace RemoteCam.Phone.Reports

open RemoteCam.Lib.OrderedMap
open RemoteCam.Backend.Receive (shape finiteCameraState)
open RemoteCam.Cbor.CBORDecoder (CBORValue)
open RemoteCam.Cbor.Codec (Bytes Value keyLess kMaxCollectionElements)
open RemoteCam.Cbor.Limits
open RemoteCam.Cbor.RoundTrip
open RemoteCam.Cbor.Utf8 (WellFormed)
open RemoteCam.Control.Builders (puts put makeMessage Message.encode)
open RemoteCam.Control.Capabilities
open RemoteCam.Control.Commands (Mode)
open RemoteCam.Control.Envelope
open RemoteCam.Control.Messages (literal find Message CameraState Caps CaptureFormat kMaxPayloadBytes
  isfinite isNegative exceedsOne validDeviceId parseHello parseOrientation parseBattery
  parseCameraState parseThermal parseFormatAck)
open RemoteCam.Control.Numbers (Double)
open RemoteCam.Control.RoundTrip
open RemoteCam.Phone.Messages
open RemoteCam.Phone.Transport (Thermal)

/-! ### What the phone builds -/

/-- The fields that are sent. -/
structure CameraControlState where
  deviceID : Option Text
  position : CameraPosition
  lens : CameraLens
  zoom : Double
  focusMode : Mode
  focus : Double
  exposureMode : Mode
  iso : Double
  exposureSeconds : Double
  exposureBias : Double
  whiteBalanceMode : Mode
  whiteBalanceKelvin : Double
  torchEnabled : Bool
  stabilizationEnabled : Bool

def Thermal.rawValue : Thermal → String
  | .nominal => "nominal"
  | .fair => "fair"
  | .serious => "serious"
  | .critical => "critical"

inductive PhoneMessage where
  | hello (deviceName deviceID model : Text) (allowUnauthenticated : Bool)
  | streamStart
  | formatAcknowledged (generation : UInt64)
  | formatRejected (generation : UInt64) (code message : Text)
  | capabilities (devices : List AVCaptureDevice)
  | cameraState (state : CameraControlState)
  | orientation (degrees : Double)
  | thermal (state : Thermal)
  | battery (level : Double) (charging : Bool)

def helloFields (deviceName deviceID model : Text) (allowUnauthenticated : Bool) :
    List (String × CBORValue) :=
  [("v", .unsigned 1), ("device_name", .string deviceName.1), ("device_id", .string deviceID.1),
    ("platform", .string (literal "ios")), ("model", .string model.1),
    ("caps", .array [.string (literal "h264"), .string (literal "hevc")]),
    ("allow_unauthenticated", .boolean allowUnauthenticated)]

def cameraStateFields (state : CameraControlState) : List (String × CBORValue) :=
  [("device_id", (state.deviceID.map fun id => .string id.1).getD .null),
    ("position", .string (literal state.position.rawValue)),
    ("lens", .string (literal state.lens.rawValue)), ("zoom", .double state.zoom),
    ("focus_mode", .string (literal state.focusMode.rawValue)), ("focus", .double state.focus),
    ("exposure_mode", .string (literal state.exposureMode.rawValue)), ("iso", .double state.iso),
    ("exposure", .double state.exposureSeconds), ("ev", .double state.exposureBias),
    ("wb_mode", .string (literal state.whiteBalanceMode.rawValue)),
    ("wb", .double state.whiteBalanceKelvin), ("torch", .boolean state.torchEnabled),
    ("stabilization", .boolean state.stabilizationEnabled)]

namespace PhoneMessage

/-- The extension of `ControlMessage`; only the capabilities may trap. -/
def build : PhoneMessage → Option ControlMessage
  | hello deviceName deviceID model allowUnauthenticated =>
    some (make "hello" (helloFields deviceName deviceID model allowUnauthenticated))
  | streamStart => some (make "stream_start" [])
  | formatAcknowledged generation => some (make "format_ack" [("generation", .unsigned generation)])
  | formatRejected generation code message =>
    some (Control.Capabilities.formatRejected generation code message)
  | capabilities devices => Control.Capabilities.capabilities (CaptureEngine.capabilities devices)
  | cameraState state => some (make "camera_state" (cameraStateFields state))
  | orientation degrees =>
    some (make "orientation" [("deg", .double degrees), ("locked", .boolean false)])
  | thermal state => some (make "thermal" [("state", .string (literal (Thermal.rawValue state)))])
  | battery level charging =>
    some (make "battery" [("level", .double level), ("charging", .boolean charging)])

end PhoneMessage

/-! ### What it means to the PC -/

def captureFormat (format : CaptureFormatDescriptor) : CaptureFormat where
  width := .ofNat format.width.toNat
  height := .ofNat format.height.toNat
  fps := .ofNat format.framesPerSecond.toNat

def cameraDescriptor (capability : CameraCapability) : Control.Messages.CameraDescriptor where
  id := capability.camera.id.1
  name := capability.camera.name.1
  position := literal capability.camera.position.rawValue
  lens := literal capability.camera.lens.rawValue
  formats := capability.formats.map captureFormat

def caps (devices : List AVCaptureDevice) : Caps where
  cameras := (CaptureEngine.capabilities devices).map cameraDescriptor
  codecs := [literal "hevc", literal "h264"]

def CameraControlState.report (state : CameraControlState) : CameraState where
  deviceId := state.deviceID.map (·.1)
  position := literal state.position.rawValue
  lens := literal state.lens.rawValue
  zoom := state.zoom
  focusMode := literal state.focusMode.rawValue
  focus := state.focus
  exposureMode := literal state.exposureMode.rawValue
  iso := state.iso
  exposureSeconds := state.exposureSeconds
  exposureBias := state.exposureBias
  whiteBalanceMode := literal state.whiteBalanceMode.rawValue
  whiteBalanceKelvin := state.whiteBalanceKelvin
  torch := state.torchEnabled
  stabilization := state.stabilizationEnabled

namespace PhoneMessage

/-- `stream_start` says nothing but its name. -/
def report : PhoneMessage → Option Report
  | hello deviceName deviceID model allowUnauthenticated =>
    some (.hello
      { version := Control.Messages.kProtocolVersion, deviceName := deviceName.1,
        deviceId := deviceID.1, platform := literal "ios", model := model.1,
        caps := [literal "h264", literal "hevc"], allowUnauthenticated })
  | streamStart => none
  | formatAcknowledged generation => some (.formatAck generation)
  | formatRejected generation code message => some (.formatReject ⟨generation, code.1, message.1⟩)
  | capabilities devices => some (.caps (caps devices))
  | cameraState state => some (.cameraState state.report)
  | orientation degrees => some (.orientation ⟨degrees, false⟩)
  | thermal state => some (.thermal (literal (Thermal.rawValue state)))
  | battery level charging => some (.battery ⟨level, charging⟩)

/-- `rc::control`, for the same report. -/
def pcBuild (m : PhoneMessage) : Message :=
  (m.report.map Report.build).getD (makeMessage "stream_start" [])

/-- What the PC asks of a report. -/
def Fit : PhoneMessage → Prop
  | m@(hello deviceName deviceID model _) =>
    (deviceName.1 ≠ [] ∧ model.1 ≠ [] ∧ validDeviceId deviceID.1 = true) ∧
      (Message.encode m.pcBuild).length ≤ kMaxPayloadBytes
  | streamStart | thermal _ => True
  | formatAcknowledged generation => generation ≠ 0
  | formatRejected generation code message => RejectFit generation code message
  | capabilities devices => CapsFit devices
  | m@(cameraState state) =>
    finiteCameraState state.report = true ∧
      (Message.encode m.pcBuild).length ≤ kMaxPayloadBytes
  | orientation degrees => isfinite degrees = true
  | battery level _ => isfinite level = true ∧ isNegative level = false ∧ exceedsOne level = false

/-- The PC decodes the bytes and finds them in the shape of their type. -/
def Taken (m : PhoneMessage) : Prop :=
  ∃ message received, m.build = some message ∧ Message.decode message.encoded = .ok received ∧
    shape received = some true

end PhoneMessage

/-! ### Both write the same -/

section Bytes

theorem foldl_put_perm {entries : List (String × Value)} {map : Control.Messages.Map}
    (h : Keys (entries.map Prod.fst))
    (hnew : ∀ entry ∈ map, ∀ e ∈ entries, entry.1 ≠ literal e.1) :
    (entries.foldl (fun map entry => put map entry.1 entry.2) map).Perm
      (entries.map (fun entry => (literal entry.1, entry.2)) ++ map) := by
  induction entries generalizing map with
  | nil => rfl
  | cons entry entries ih =>
    obtain ⟨hascii, hnodup⟩ := h
    obtain ⟨hkey, hrest⟩ := List.forall_mem_cons.mp hascii
    obtain ⟨hfresh, hnodup⟩ := List.nodup_cons.mp hnodup
    have hput : (put map entry.1 entry.2).Perm ((literal entry.1, entry.2) :: map) :=
      insertOrAssign_perm strictTotal_keyLess _ fun e he => hnew e he entry List.mem_cons_self
    refine (ih ⟨hrest, hnodup⟩ fun e he e' he' => ?_).trans
      ((hput.append_left _).trans List.perm_middle)
    rcases List.mem_cons.mp (hput.mem_iff.mp he) with rfl | he
    · refine fun heq => hfresh ?_
      have hmem := List.mem_map_of_mem (f := Prod.fst) he'
      rwa [← literal_inj hkey (hrest _ hmem) heq] at hmem
    · exact hnew e he e' (List.mem_cons_of_mem _ he')

theorem sorted_foldl_put {entries : List (String × Value)} {map : Control.Messages.Map}
    (h : Sorted keyLess map) :
    Sorted keyLess (entries.foldl (fun map entry => put map entry.1 entry.2) map) := by
  induction entries generalizing map with
  | nil => exact h
  | cons entry entries ih => exact ih (sorted_insertOrAssign strictTotal_keyLess h _ _)

/-- **The order of the fields does not matter.** -/
theorem puts_perm {entries entries' : List (String × Value)} (h : Keys (entries.map Prod.fst))
    (hperm : entries.Perm entries') : puts entries = puts entries' := by
  have hkeys' : Keys (entries'.map Prod.fst) :=
    ⟨fun key hkey => h.ascii key ((hperm.map _).mem_iff.mpr hkey), (hperm.map _).nodup_iff.mp h.nodup⟩
  have hputs : (puts entries).Perm (puts entries') := by
    unfold puts
    exact (foldl_put_perm h (List.forall_mem_nil _)).trans
      (((hperm.map _).append_right _).trans (foldl_put_perm hkeys' (List.forall_mem_nil _)).symm)
  have hsorted (entries : List (String × Value)) : Sorted keyLess (puts entries) := by
    unfold puts
    exact sorted_foldl_put .nil
  refine hputs.eq_of_pairwise (fun a b _ _ hab hba => ?_) (hsorted entries) (hsorted entries')
  have hself := strictTotal_keyLess.trans hab hba
  rw [strictTotal_keyLess.irrefl] at hself
  cases hself

/-! #### Capabilities -/

theorem toNat_ofInt32 {number : ℤ} (h : number < 2 ^ 31) :
    (UInt32.ofNat number.toNat).toNat = number.toNat := by
  refine UInt32.toNat_ofNat_of_lt' ?_
  have hsize : UInt32.size = 2 ^ 32 := rfl
  omega

theorem toUInt64_ofInt {number : ℤ} (h : number < 2 ^ 31) :
    (UInt32.ofNat number.toNat).toUInt64 = .ofNat number.toNat := by
  rw [← UInt64.toNat_inj, UInt32.toNat_toUInt64, toNat_ofInt32 h, toNat_ofInt h]

/-- Formats are in one order on both ends. -/
theorem formatLess_captureFormat {f g : CaptureFormatDescriptor} (hf : Offered f ∧ Countable f)
    (hg : Offered g ∧ Countable g) :
    Control.Builders.formatLess (captureFormat f) (captureFormat g) = less f g := by
  obtain ⟨⟨hfw, hfh, hfr⟩, hfw', hfh', -⟩ := hf
  obtain ⟨⟨hgw, hgh, hgr⟩, hgw', hgh', -⟩ := hg
  have hrate : f.framesPerSecond < 2 ^ 31 ∧ g.framesPerSecond < 2 ^ 31 := by omega
  unfold Control.Builders.formatLess less captureFormat
  simp only [ne_eq, UInt32.lt_iff_toNat_lt, ← UInt32.toNat_inj, toNat_ofInt32 hfw,
    toNat_ofInt32 hfh, toNat_ofInt32 hrate.1, toNat_ofInt32 hgw, toNat_ofInt32 hgh,
    toNat_ofInt32 hrate.2]
  split_ifs <;> simp only [decide_eq_decide] <;> omega

theorem formatItem_eq {f : CaptureFormatDescriptor} (h : Offered f) :
    formatItem f = Control.Builders.formatValue (captureFormat f) := by
  have hrate : f.framesPerSecond < 2 ^ 31 := by
    have hrate := h.rate
    omega
  unfold formatItem formatFields Control.Builders.formatValue Control.Builders.formatFields
    captureFormat
  rw [toUInt64_ofInt h.width, toUInt64_ofInt h.height, toUInt64_ofInt hrate]

theorem cameraItem_eq {c : CameraCapability} (h : ∀ f ∈ c.formats, Offered f ∧ Countable f) :
    cameraItem c = Control.Builders.cameraValue (cameraDescriptor c) := by
  have hsorted : (sorted c.formats).map captureFormat =
      Control.Builders.sortFormats (c.formats.map captureFormat) :=
    List.map_insertionSort _ _ captureFormat c.formats fun f hf g hg => by
      rw [formatLess_captureFormat (h g hg) (h f hf)]
  have hitems : (sorted c.formats).map formatItem =
      (Control.Builders.sortFormats (c.formats.map captureFormat)).map
        Control.Builders.formatValue := by
    rw [← hsorted, List.map_map]
    exact List.map_congr_left fun f hf =>
      formatItem_eq (h f ((sorted_perm _).mem_iff.mp hf)).1
  unfold cameraItem cameraFields Control.Builders.cameraValue Control.Builders.cameraFields
  rw [hitems]
  rfl

theorem encoded_caps {devices : List AVCaptureDevice} {message : ControlMessage}
    (h : (PhoneMessage.capabilities devices).build = some message) :
    message.encoded = Message.encode (Control.Builders.capabilities (caps devices)) := by
  have hencoded := encoded_capabilities (CaptureEngine.capabilities devices)
  have hbuild : Control.Capabilities.capabilities (CaptureEngine.capabilities devices) = some message :=
    h
  rw [hbuild, Option.map_some] at hencoded
  split_ifs at hencoded with hcountable
  rw [Option.some.inj hencoded]
  have hoffered := forall_formats.mpr fun device (_ : device ∈ devices) f hf => Offered.of_mem hf
  have hitems : (CaptureEngine.capabilities devices).map cameraItem =
      ((CaptureEngine.capabilities devices).map cameraDescriptor).map Control.Builders.cameraValue := by
    rw [List.map_map]
    refine List.map_congr_left fun c hc => cameraItem_eq fun f hf => ?_
    have hmem := (sorted_perm c.formats).mem_iff.mpr hf
    exact ⟨hoffered c hc f hmem, hcountable c hc f hmem⟩
  unfold capsFields Control.Builders.capabilities caps
  rw [hitems]
  rfl

/-! #### Every report -/

theorem PhoneMessage.encoded_eq {m : PhoneMessage} {message : ControlMessage}
    (h : m.build = some message) : message.encoded = Message.encode m.pcBuild := by
  cases m with
  | capabilities devices => exact encoded_caps h
  | hello deviceName deviceID model allowUnauthenticated =>
    obtain rfl := Option.some.inj h
    refine (encoded_make _ _).trans (congrArg (fun fields => Message.encode ⟨_, fields⟩) ?_)
    refine puts_perm (by decide : Keys ["v", "device_name", "device_id", "platform", "model", "caps",
      "allow_unauthenticated"]) ?_
    exact (List.Perm.swap _ _ []).append_left [_, _, _, _, _]
  | cameraState state =>
    obtain rfl := Option.some.inj h
    obtain ⟨deviceID⟩ := state
    cases deviceID <;> exact encoded_make _ _
  | streamStart | formatAcknowledged | formatRejected | orientation | thermal | battery =>
    obtain rfl := Option.some.inj h
    exact encoded_make _ _

end Bytes

/-! ### What the PC makes of it -/

section Taken

/-- What the codec carries is decoded if it is not too large, and in no other case. -/
theorem exists_decoded_iff {message : ControlMessage} {m : Message} {p : Message → Prop}
    (hencoded : message.encoded = Message.encode m)
    (hdecode : (Message.encode m).length ≤ kMaxPayloadBytes →
      Message.decode (Message.encode m) = .ok m) :
    (∃ received, Message.decode message.encoded = .ok received ∧ p received) ↔
      (Message.encode m).length ≤ kMaxPayloadBytes ∧ p m := by
  rw [hencoded]
  constructor
  · rintro ⟨received, hreceived, hp⟩
    have hfits : (Message.encode m).length ≤ kMaxPayloadBytes := by
      by_contra hlong
      unfold Message.decode at hreceived
      rw [if_pos (Nat.lt_of_not_le hlong)] at hreceived
      cases hreceived
    rw [hdecode hfits] at hreceived
    obtain rfl := Except.ok.inj hreceived
    exact ⟨hfits, hp⟩
  · exact fun ⟨hfits, hp⟩ => ⟨m, hdecode hfits, hp⟩

theorem ascii_mode (mode : Mode) : Ascii mode.rawValue := by
  cases mode <;> decide

theorem ascii_thermal (state : Thermal) : Ascii (Thermal.rawValue state) := by
  cases state <;> decide

theorem texts_report {m : PhoneMessage} {r : Report} (h : m.report = some r) :
    r.Written ∧ ∀ text ∈ r.texts, WellFormed text := by
  have hnames : WellFormed (literal "ios") ∧ WellFormed (literal "h264") ∧
      WellFormed (literal "hevc") :=
    ⟨wellFormed_literal (by decide), wellFormed_literal (by decide), wellFormed_literal (by decide)⟩
  cases m with
  | hello deviceName deviceID model allowUnauthenticated =>
    obtain rfl := Option.some.inj h
    refine ⟨⟨rfl, (by decide : 2 ≤ kMaxCollectionElements.toNat)⟩, ?_⟩
    simp only [Report.texts, List.forall_mem_cons]
    exact ⟨deviceName.2, deviceID.2, hnames.1, model.2, hnames.2.1, hnames.2.2, List.forall_mem_nil _⟩
  | streamStart => cases h
  | formatAcknowledged generation =>
    obtain rfl := Option.some.inj h
    exact ⟨trivial, List.forall_mem_nil _⟩
  | formatRejected generation code message =>
    obtain rfl := Option.some.inj h
    exact ⟨trivial, List.forall_mem_cons.mpr
      ⟨code.2, List.forall_mem_singleton.mpr message.2⟩⟩
  | capabilities devices =>
    obtain rfl := Option.some.inj h
    have hcamera (c : CameraCapability) : ∀ text ∈ [c.camera.id.1, c.camera.name.1,
        literal c.camera.position.rawValue, literal c.camera.lens.rawValue], WellFormed text := by
      simp only [List.forall_mem_cons]
      exact ⟨c.camera.id.2, c.camera.name.2, wellFormed_literal (ascii_position _),
        wellFormed_literal (ascii_lens _), List.forall_mem_nil _⟩
    refine ⟨(by decide : 2 ≤ kMaxCollectionElements.toNat), ?_⟩
    simp only [Report.texts, caps, List.forall_mem_append, List.forall_mem_cons]
    refine ⟨fun text htext => ?_, hnames.2.2, hnames.2.1, List.forall_mem_nil _⟩
    obtain ⟨camera, hmem, htext⟩ := List.mem_flatMap.mp htext
    obtain ⟨c, -, rfl⟩ := List.mem_map.mp hmem
    exact hcamera c text htext
  | cameraState state =>
    obtain rfl := Option.some.inj h
    refine ⟨trivial, List.forall_mem_append.mpr ⟨fun text htext => ?_, ?_⟩⟩
    · obtain ⟨id, -, rfl⟩ := Option.map_eq_some_iff.mp (Option.mem_toList.mp htext)
      exact id.2
    · simp only [List.forall_mem_cons]
      exact ⟨wellFormed_literal (ascii_position _), wellFormed_literal (ascii_lens _),
        wellFormed_literal (ascii_mode _), wellFormed_literal (ascii_mode _),
        wellFormed_literal (ascii_mode _), List.forall_mem_nil _⟩
  | orientation degrees =>
    obtain rfl := Option.some.inj h
    exact ⟨trivial, List.forall_mem_nil _⟩
  | thermal state =>
    obtain rfl := Option.some.inj h
    exact ⟨trivial, List.forall_mem_singleton.mpr (wellFormed_literal (ascii_thermal _))⟩
  | battery level charging =>
    obtain rfl := Option.some.inj h
    exact ⟨trivial, List.forall_mem_nil _⟩

/-- What the PC's builder writes is decoded, if it is not too large. -/
theorem decode_pcBuild (m : PhoneMessage)
    (hfits : (Message.encode m.pcBuild).length ≤ kMaxPayloadBytes) :
    Message.decode (Message.encode m.pcBuild) = .ok m.pcBuild := by
  unfold PhoneMessage.pcBuild at hfits ⊢
  cases hreport : m.report with
  | some r =>
    obtain ⟨hwritten, htexts⟩ := texts_report hreport
    rw [hreport] at hfits
    exact decode_encode_build hwritten htexts hfits
  | none =>
    rw [hreport] at hfits
    exact decode_encode_makeMessage (by decide) (by decide : Keys ["t"])
      (by decide : 0 < kMaxCollectionElements.toNat) (List.forall_mem_nil _) hfits

theorem taken_iff_of_build {m : PhoneMessage} {message : ControlMessage}
    (h : m.build = some message) :
    m.Taken ↔ (Message.encode m.pcBuild).length ≤ kMaxPayloadBytes ∧ shape m.pcBuild = some true := by
  rw [← @exists_decoded_iff message m.pcBuild (fun received => shape received = some true)
    (PhoneMessage.encoded_eq h) (decode_pcBuild m)]
  unfold PhoneMessage.Taken
  rw [h]
  constructor
  · rintro ⟨message, received, ⟨⟩, htaken⟩
    exact ⟨received, htaken⟩
  · exact fun ⟨received, htaken⟩ => ⟨message, received, rfl, htaken⟩

/-- A report of a few small fields always fits. -/
theorem fits_small {type : String} {entries : List (String × Value)}
    (htype : (literal type).length ≤ 20) (hcount : entries.length ≤ 2)
    (h : ∀ entry ∈ entries, (literal entry.1).length + (Cbor.Codec.encode entry.2).length ≤ 30) :
    (Message.encode (makeMessage type entries)).length ≤ kMaxPayloadBytes := by
  have hsize := @length_makeMessage_le entries type 30 (by omega) h
  have hmax : kMaxPayloadBytes = 1048576 := rfl
  have hfew : 9 + (entries.length + 1) * (9 + 30) ≤ 9 + 3 * (9 + 30) := by omega
  omega

/-! #### The parsers -/

/-- A number is read if it is finite. -/
theorem any_numericDouble {α : Type} {bits : UInt64} {f : UInt64 → Option α} {p : α → Bool} :
    ((Control.Messages.numericDouble (.double bits)).bind f).any p = true ↔
      isfinite bits = true ∧ (f bits).any p = true := by
  change ((if isfinite bits then some bits else none).bind f).any p = true ↔ _
  cases isfinite bits <;> simp

theorem shape_hello (deviceName deviceID model : Text) (allowUnauthenticated : Bool) :
    shape (PhoneMessage.hello deviceName deviceID model allowUnauthenticated).pcBuild = some true ↔
      deviceName.1 ≠ [] ∧ model.1 ≠ [] ∧ validDeviceId deviceID.1 = true := by
  let m := Control.Builders.hello deviceName.1 deviceID.1 model.1
    [literal "h264", literal "hevc"] (literal "ios") allowUnauthenticated
  have hshape : shape m = some (parseHello m).isSome := rfl
  have hfind (key : String) (hkey : Ascii key) : find m.fields key = _ :=
    find_puts (by decide : Keys ["v", "device_name", "device_id", "platform", "model",
      "allow_unauthenticated", "caps"]) hkey
  have hshaped : m.shaped "hello" ["v", "device_name", "device_id", "platform", "model", "caps",
      "allow_unauthenticated"] = true := shaped_makeMessage (by simp)
  have hcaps : [Value.text (literal "h264"), .text (literal "hevc")].mapM
      Control.Messages.asText = some [literal "h264", literal "hevc"] := rfl
  change shape m = some true ↔ _
  rw [hshape]
  unfold parseHello Message.unsignedInt Message.boolean Message.text Control.Messages.unsignedAt
    Control.Messages.textAt Control.Messages.arrayAt
  rw [hshaped]
  simp (disch := decide) only [hfind]
  simp [List.lookup_cons, isSome_guard_bind, hcaps, (by decide : literal "ios" ≠ [])]
  tauto

theorem shape_cameraState (state : CameraControlState) :
    shape (PhoneMessage.cameraState state).pcBuild = some true ↔
      finiteCameraState state.report = true := by
  let m := Control.Builders.cameraState state.report
  let keys := ["device_id", "position", "lens", "zoom", "focus_mode", "focus", "exposure_mode",
    "iso", "exposure", "ev", "wb_mode", "wb", "torch", "stabilization"]
  have hshape : shape m = some ((parseCameraState m).any finiteCameraState) := rfl
  obtain ⟨hshaped, hfind⟩ : m.shaped "camera_state" keys = true ∧
      ∀ key, Ascii key → find m.fields key = _ :=
    read_makeMessage (by decide : Keys keys) (List.Subset.refl _)
  have hid : m.optionalDeviceId = some (state.deviceID.map (·.1)) := by
    unfold Message.optionalDeviceId
    rw [hfind _ (by decide)]
    obtain ⟨deviceID⟩ := state
    cases deviceID <;> rfl
  change shape m = some true ↔ _
  rw [hshape]
  unfold parseCameraState Message.number Message.boolean Message.text Control.Messages.textAt
  rw [hshaped, hid]
  simp (disch := decide) only [hfind]
  unfold finiteCameraState
  simp [List.lookup_cons, any_numericDouble]
  tauto

theorem shape_orientation (degrees : Double) :
    shape (PhoneMessage.orientation degrees).pcBuild = some true ↔ isfinite degrees = true := by
  let m := Control.Builders.orientation ⟨degrees, false⟩
  have hshape : shape m = some ((parseOrientation m).any fun o => isfinite o.degrees) := rfl
  obtain ⟨hshaped, hfind⟩ : m.shaped "orientation" ["deg", "locked"] = true ∧
      ∀ key, Ascii key → find m.fields key = _ :=
    read_makeMessage (by decide : Keys ["deg", "locked"]) (List.Subset.refl _)
  change shape m = some true ↔ _
  rw [hshape]
  unfold parseOrientation Message.number Message.boolean
  rw [hshaped]
  simp (disch := decide) only [hfind]
  simp [List.lookup_cons, any_numericDouble]

theorem shape_battery (level : Double) (charging : Bool) :
    shape (PhoneMessage.battery level charging).pcBuild = some true ↔
      isfinite level = true ∧ isNegative level = false ∧ exceedsOne level = false := by
  let m := Control.Builders.battery ⟨level, charging⟩
  have hshape : shape m = some ((parseBattery m).any fun b =>
      isfinite b.level && !isNegative b.level && !exceedsOne b.level) := rfl
  obtain ⟨hshaped, hfind⟩ : m.shaped "battery" ["level", "charging"] = true ∧
      ∀ key, Ascii key → find m.fields key = _ :=
    read_makeMessage (by decide : Keys ["level", "charging"]) (List.Subset.refl _)
  change shape m = some true ↔ _
  rw [hshape]
  unfold parseBattery Message.number Message.boolean
  rw [hshaped]
  simp (disch := decide) only [hfind]
  simp [List.lookup_cons, any_numericDouble]
  tauto

theorem shape_formatAck (generation : UInt64) :
    shape (PhoneMessage.formatAcknowledged generation).pcBuild = some true ↔ generation ≠ 0 := by
  have hshape : shape (Control.Builders.formatAck generation) =
      some (parseFormatAck (Control.Builders.formatAck generation)).isSome := rfl
  change shape (Control.Builders.formatAck generation) = some true ↔ _
  rw [hshape]
  rcases eq_or_ne generation 0 with rfl | hne
  · exact iff_of_false (by decide +kernel) (not_not_intro rfl)
  · rw [parse_formatAck hne]
    exact iff_of_true rfl hne

/-- A report that has to be parsed, and nothing else. -/
theorem taken_iff_parsed {α : Type} {parse : Message → Option α} {m : PhoneMessage}
    {message : ControlMessage} (h : m.build = some message)
    (hshape : shape m.pcBuild = some (parse m.pcBuild).isSome) :
    m.Taken ↔ Control.Capabilities.Taken parse message := by
  rw [taken_iff_of_build h, hshape, Option.some_inj]
  exact (@exists_decoded_iff message m.pcBuild (fun received => (parse received).isSome)
    (PhoneMessage.encoded_eq h) (decode_pcBuild m)).symm

/-- **Which reports are taken.** -/
theorem taken_iff_fit (m : PhoneMessage) : m.Taken ↔ m.Fit := by
  cases m with
  | hello deviceName deviceID model allowUnauthenticated =>
    rw [taken_iff_of_build rfl, shape_hello, and_comm]
    rfl
  | streamStart =>
    have hshape : shape PhoneMessage.streamStart.pcBuild = some (puts []).isEmpty := rfl
    rw [taken_iff_of_build rfl, hshape]
    unfold puts
    exact iff_of_true ⟨fits_small (by decide) (by decide) (List.forall_mem_nil _), rfl⟩ trivial
  | formatAcknowledged generation =>
    rw [taken_iff_of_build rfl, shape_formatAck]
    refine and_iff_right (fits_small (by decide) (by decide : 1 ≤ 2) ?_)
    have hvalue := length_unsigned_le generation
    have hkey : (literal "generation").length = 10 := rfl
    exact List.forall_mem_singleton.mpr (by dsimp only; omega)
  | formatRejected generation code message =>
    exact (taken_iff_parsed rfl rfl).trans rejectTaken_iff
  | capabilities devices =>
    refine Iff.trans ?_ (capsTaken_iff devices)
    cases hbuild : (PhoneMessage.capabilities devices).build with
    | some message =>
      rw [taken_iff_parsed hbuild rfl]
      constructor
      · exact fun htaken => ⟨message, hbuild, htaken⟩
      · rintro ⟨message', hbuild', htaken⟩
        obtain rfl := Option.some.inj (hbuild.symm.trans hbuild')
        exact htaken
    | none =>
      refine iff_of_false ?_ ?_
      · rintro ⟨message, received, hsome, -⟩
        cases hbuild.symm.trans hsome
      · rintro ⟨message, hsome, -⟩
        cases hbuild.symm.trans hsome
  | cameraState state =>
    rw [taken_iff_of_build rfl, shape_cameraState, and_comm]
    rfl
  | orientation degrees =>
    rw [taken_iff_of_build rfl, shape_orientation]
    refine and_iff_right (fits_small (by decide) (by decide : 2 ≤ 2) ?_)
    simp only [List.forall_mem_cons, Control.Commands.length_double]
    exact ⟨by decide, by decide, List.forall_mem_nil _⟩
  | thermal state =>
    have hshape : shape (PhoneMessage.thermal state).pcBuild = some
        ((parseThermal (Control.Builders.thermal (literal (Thermal.rawValue state)))).any fun state =>
          ["nominal", "fair", "serious", "critical"].any fun name => state = literal name) := rfl
    rw [taken_iff_of_build rfl, hshape, parse_thermal]
    have hknown : ["nominal", "fair", "serious", "critical"].any
        (fun name => literal (Thermal.rawValue state) = literal name) = true := by
      cases state <;> decide
    refine iff_of_true ⟨fits_small (by decide) (by decide : 1 ≤ 2) ?_, congrArg some hknown⟩ trivial
    refine List.forall_mem_singleton.mpr ?_
    cases state <;> decide
  | battery level charging =>
    rw [taken_iff_of_build rfl, shape_battery]
    refine and_iff_right (fits_small (by decide) (by decide : 2 ≤ 2) ?_)
    simp only [List.forall_mem_cons, Control.Commands.length_double]
    exact ⟨by decide, by cases charging <;> decide, List.forall_mem_nil _⟩

theorem formatBounds_of_sized {f : CaptureFormatDescriptor} (h : Offered f) (hsized : Sized f) :
    FormatBounds (captureFormat f) := by
  obtain ⟨hwidth, hheight, hrate⟩ := h
  have hwide := toNat_ofInt32 hwidth
  have hhigh := toNat_ofInt32 hheight
  have hfast := @toNat_ofInt32 f.framesPerSecond (by omega)
  unfold Sized at hsized
  unfold FormatBounds captureFormat
  simp only [UInt32.le_iff_toNat_le, ne_eq, ← UInt32.toNat_inj, hwide, hhigh, hfast]
  simp only [UInt32.reduceToNat]
  omega

/-- What is taken is within the bounds of the parsers. -/
theorem PhoneMessage.Fit.bounds {m : PhoneMessage} {r : Report} (hfit : m.Fit)
    (h : m.report = some r) : r.Bounds ∧ ∀ x ∈ r.numbers, isfinite x = true := by
  cases m with
  | hello deviceName deviceID model allowUnauthenticated =>
    obtain rfl := Option.some.inj h
    obtain ⟨⟨hname, hmodel, hid⟩, -⟩ := hfit
    exact ⟨⟨hid, hname, (by decide : literal "ios" ≠ []), hmodel⟩, List.forall_mem_nil _⟩
  | streamStart => cases h
  | formatAcknowledged generation =>
    obtain rfl := Option.some.inj h
    exact ⟨hfit, List.forall_mem_nil _⟩
  | formatRejected generation code message =>
    obtain rfl := Option.some.inj h
    obtain ⟨hgeneration, hcode, hmessage⟩ := hfit
    exact ⟨⟨hgeneration, ⟨List.length_pos_iff.mp hcode.1, hcode.2⟩,
      List.length_pos_iff.mp hmessage.1, hmessage.2⟩, List.forall_mem_nil _⟩
  | capabilities devices =>
    obtain rfl := Option.some.inj h
    obtain ⟨-, hids, hformats⟩ := hfit
    refine ⟨⟨?_, List.forall_mem_cons.mpr ⟨.inr rfl, List.forall_mem_singleton.mpr (.inl rfl)⟩⟩,
      List.forall_mem_nil _⟩
    simp only [caps, CaptureEngine.capabilities, List.map_map, List.forall_mem_map]
    refine fun device hmem => ⟨hids device hmem, List.forall_mem_map.mpr fun f hf => ?_⟩
    have hoffered := List.mem_dedup.mp hf
    exact formatBounds_of_sized (.of_mem hoffered)
      (forall_sized.mpr (hformats device hmem) f hoffered)
  | cameraState state =>
    obtain rfl := Option.some.inj h
    refine ⟨trivial, ?_⟩
    have hfinite := hfit.1
    unfold finiteCameraState at hfinite
    simp only [Bool.and_eq_true] at hfinite
    obtain ⟨⟨⟨⟨⟨hzoom, hfocus⟩, hiso⟩, hseconds⟩, hbias⟩, hkelvin⟩ := hfinite
    simp only [Report.numbers, List.forall_mem_cons]
    exact ⟨hzoom, hfocus, hiso, hseconds, hbias, hkelvin, List.forall_mem_nil _⟩
  | orientation degrees =>
    obtain rfl := Option.some.inj h
    exact ⟨trivial, List.forall_mem_singleton.mpr hfit⟩
  | thermal state =>
    obtain rfl := Option.some.inj h
    exact ⟨trivial, List.forall_mem_nil _⟩
  | battery level charging =>
    obtain rfl := Option.some.inj h
    exact ⟨trivial, List.forall_mem_singleton.mpr hfit.1⟩

end Taken

/-- The PC reads what the phone meant, with the formats of every camera in order. -/
def PhoneMessage.Read (m : PhoneMessage) : Prop :=
  ∃ message received, m.build = some message ∧ Message.decode message.encoded = .ok received ∧
    shape received = some true ∧ ∀ r, m.report = some r → r.parse received = some r.sorted

theorem read_of_fit {m : PhoneMessage} (hfit : m.Fit) : m.Read := by
  obtain ⟨message, received, hbuild, hdecode, hshape⟩ := (taken_iff_fit m).mpr hfit
  obtain ⟨hfits, hshape⟩ :=
    (taken_iff_of_build hbuild).mp ⟨message, received, hbuild, hdecode, hshape⟩
  refine ⟨message, m.pcBuild, hbuild, ?_, hshape, fun r hr => ?_⟩
  · rw [PhoneMessage.encoded_eq hbuild]
    exact decode_pcBuild m hfits
  · obtain ⟨hbounds, hnumbers⟩ := hfit.bounds hr
    have hpc : m.pcBuild = r.build := by
      unfold PhoneMessage.pcBuild
      rw [hr]
      rfl
    rw [hpc]
    exact parse_build (texts_report hr).1 hbounds hnumbers

/-- **Reports cross.** Both ends build the same bytes; the PC takes what fits, and nothing else; and
what it takes, it reads as it was meant. -/
theorem report_crosses (m : PhoneMessage) :
    (∀ message, m.build = some message → message.encoded = Message.encode m.pcBuild) ∧
    (m.Taken ↔ m.Fit) ∧ (m.Fit → m.Read) :=
  ⟨fun _ => PhoneMessage.encoded_eq, taken_iff_fit m, read_of_fit⟩

/-- Fuller than full. -/
example : ¬ (PhoneMessage.battery 0x3FF0000000000001 true).Fit := by
  unfold PhoneMessage.Fit
  decide

end RemoteCam.Phone.Reports
