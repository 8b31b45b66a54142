import Mathlib.Data.List.Dedup
import Mathlib.Data.Rat.Defs
import RemoteCam.Control.RoundTrip
import RemoteCam.Phone.Messages

/-! # The capabilities and rejections that the phone writes

`CaptureEngine.capabilities` lists the cameras with their formats, filtered by rate only, and
`ControlMessage.capabilities` writes them down; `formatRejected` writes whatever text an error
describes itself with. `parseCaps` and `parseFormatReject` of the PC have bounds for all of these.

`accepted_iff`: the cameras and the texts for which the PC takes the message. -/

namespace RemoteCam.Control.Capabilities

open RemoteCam.Cbor.Codec (Bytes Value appendHead kMaxCollectionElements)
open RemoteCam.Cbor.CBORDecoder (CBORValue)
open RemoteCam.Cbor.Utf8 (WellFormed)
open RemoteCam.Cbor.Limits
open RemoteCam.Control.Messages (literal find textAt unsignedAt arrayAt parseFormat parseCamera
  parseCodec parseCaps parseFormatReject kMaxPayloadBytes onlyFields Message)
open RemoteCam.Control.Builders (puts makeMessage Message.encode)
open RemoteCam.Control.Envelope RemoteCam.Control.RoundTrip
open RemoteCam.Phone.Messages
open RemoteCam.Phone.Transport (VideoCodec)

/-! ### Cameras -/

/-- A string, by its UTF-8. -/
abbrev Text := { bytes : Bytes // WellFormed bytes }

inductive Position where
  | unspecified
  | front
  | back

inductive DeviceType where
  | builtInTripleCamera
  | builtInDualWideCamera
  | builtInDualCamera
  | builtInUltraWideCamera
  | builtInWideAngleCamera
  | builtInTelephotoCamera
  | builtInTrueDepthCamera
  | other

structure FrameRateRange where
  minFrameRate : ℚ
  maxFrameRate : ℚ

structure Format where
  width : Int32
  height : Int32
  videoSupportedFrameRateRanges : List FrameRateRange

structure AVCaptureDevice where
  uniqueID : Text
  localizedName : Text
  position : Position
  deviceType : DeviceType
  formats : List Format

structure CaptureFormatDescriptor where
  width : ℤ
  height : ℤ
  framesPerSecond : ℤ
  deriving DecidableEq

inductive CameraPosition where
  | front
  | back

def CameraPosition.rawValue : CameraPosition → String
  | .front => "front"
  | .back => "back"

inductive CameraLens where
  | ultraWide
  | wide
  | telephoto
  | trueDepth
  | other

def CameraLens.rawValue : CameraLens → String
  | .ultraWide => "ultra-wide"
  | .wide => "wide"
  | .telephoto => "tele"
  | .trueDepth => "true-depth"
  | .other => "other"

structure CameraDescriptor where
  id : Text
  name : Text
  position : CameraPosition
  lens : CameraLens

/-- The set of formats is a list without repetitions. -/
structure CameraCapability where
  camera : CameraDescriptor
  formats : List CaptureFormatDescriptor

def lens : DeviceType → CameraLens
  | .builtInUltraWideCamera => .ultraWide
  | .builtInWideAngleCamera | .builtInTripleCamera | .builtInDualWideCamera
  | .builtInDualCamera => .wide
  | .builtInTelephotoCamera => .telephoto
  | .builtInTrueDepthCamera => .trueDepth
  | .other => .other

def descriptor (device : AVCaptureDevice) : CameraDescriptor where
  id := device.uniqueID
  name := device.localizedName
  position := match device.position with
    | .front => .front
    | _ => .back
  lens := lens device.deviceType

def Format.supports (format : Format) (fps : ℕ) : Bool :=
  format.videoSupportedFrameRateRanges.any fun range =>
    range.minFrameRate ≤ fps && fps ≤ range.maxFrameRate

/-- The formats of one device, in the closure of `capabilities`. -/
def offered (device : AVCaptureDevice) : List CaptureFormatDescriptor :=
  device.formats.flatMap fun format =>
    [30, 60].filterMap fun fps =>
      if format.supports fps then some ⟨format.width.toInt, format.height.toInt, fps⟩ else none

/-- `CaptureEngine.capabilities`, for the devices that were discovered. -/
def CaptureEngine.capabilities (devices : List AVCaptureDevice) : List CameraCapability :=
  devices.map fun device => ⟨descriptor device, (offered device).dedup⟩

/-! ### Messages -/

/-- `UInt64(_:)` of an `Int`, which traps below zero. -/
def unsigned (number : ℤ) : Option UInt64 :=
  if 0 ≤ number then some (.ofNat number.toNat) else none

/-- The order of the tuples. -/
def less (lhs rhs : CaptureFormatDescriptor) : Bool :=
  if lhs.width ≠ rhs.width then lhs.width < rhs.width
  else if lhs.height ≠ rhs.height then lhs.height < rhs.height
  else lhs.framesPerSecond < rhs.framesPerSecond

def sorted (formats : List CaptureFormatDescriptor) : List CaptureFormatDescriptor :=
  formats.insertionSort fun lhs rhs => less rhs lhs = false

def formatValue (format : CaptureFormatDescriptor) : Option CBORValue := do
  let width ← unsigned format.width
  let height ← unsigned format.height
  let fps ← unsigned format.framesPerSecond
  some (.map (dictionary
    [("width", .unsigned width), ("height", .unsigned height), ("fps", .unsigned fps)]))

def cameraValue (capability : CameraCapability) : Option CBORValue := do
  let formats ← (sorted capability.formats).mapM formatValue
  some (.map (dictionary
    [("id", .string capability.camera.id.1), ("name", .string capability.camera.name.1),
      ("position", .string (literal capability.camera.position.rawValue)),
      ("lens", .string (literal capability.camera.lens.rawValue)), ("formats", .array formats)]))

/-- `ControlMessage.capabilities`; nothing when it traps. -/
def capabilities (capabilities : List CameraCapability) : Option ControlMessage := do
  let cameras ← capabilities.mapM cameraValue
  some (make "caps"
    [("cameras", .array cameras),
      ("codecs", .array ([VideoCodec.hevc, .h264].map fun codec =>
        .string (literal (VideoCodec.rawValue codec))))])

def formatRejected (generation : UInt64) (code message : Text) : ControlMessage :=
  make "format_reject"
    [("generation", .unsigned generation), ("code", .string code.1), ("message", .string message.1)]

/-! ### What the PC makes of them -/

/-- The PC decodes the bytes of a message and parses it. -/
def Taken {α : Type} (parse : Message → Option α) (m : ControlMessage) : Prop :=
  ∃ received, Message.decode m.encoded = .ok received ∧ (parse received).isSome

def CapsTaken (devices : List AVCaptureDevice) : Prop :=
  ∃ m, capabilities (CaptureEngine.capabilities devices) = some m ∧ Taken parseCaps m

def RejectTaken (generation : UInt64) (code message : Text) : Prop :=
  Taken parseFormatReject (formatRejected generation code message)

/-! ### The bytes of a message -/

/-- `UInt64(_:)` does not trap. -/
def Countable (format : CaptureFormatDescriptor) : Prop :=
  0 ≤ format.width ∧ 0 ≤ format.height ∧ 0 ≤ format.framesPerSecond

instance (format : CaptureFormatDescriptor) : Decidable (Countable format) := instDecidableAnd

def formatFields (format : CaptureFormatDescriptor) : List (String × Value) :=
  [("width", .unsigned (.ofNat format.width.toNat)),
    ("height", .unsigned (.ofNat format.height.toNat)),
    ("fps", .unsigned (.ofNat format.framesPerSecond.toNat))]

def formatItem (format : CaptureFormatDescriptor) : Value := .map (puts (formatFields format))

def cameraFields (capability : CameraCapability) : List (String × Value) :=
  [("id", .text capability.camera.id.1), ("name", .text capability.camera.name.1),
    ("position", .text (literal capability.camera.position.rawValue)),
    ("lens", .text (literal capability.camera.lens.rawValue)),
    ("formats", .array ((sorted capability.formats).map formatItem))]

def cameraItem (capability : CameraCapability) : Value := .map (puts (cameraFields capability))

def capsFields (capabilities : List CameraCapability) : List (String × Value) :=
  [("cameras", .array (capabilities.map cameraItem)),
    ("codecs", .array [.text (literal "hevc"), .text (literal "h264")])]

section Bytes

theorem isSome_mapM {α β : Type} {f : α → Option β} {l : List α} :
    (l.mapM f).isSome ↔ ∀ a ∈ l, (f a).isSome := by
  induction l with
  | nil => simp
  | cons a l ih =>
    rw [List.mapM_cons, List.forall_mem_cons, ← ih]
    cases f a with
    | none => simp
    | some b => cases l.mapM f <;> simp

/-- A list of values is written when each of them is. -/
theorem mapM_value {α : Type} {write : α → Option CBORValue} {item : α → Value} {ok : α → Prop}
    [DecidablePred ok] {l : List α}
    (h : ∀ a ∈ l, (write a).map value = if ok a then some (item a) else none) :
    (l.mapM write).map valueItems = if ∀ a ∈ l, ok a then some (l.map item) else none := by
  induction l with
  | nil => rfl
  | cons a l ih =>
    obtain ⟨ha, hl⟩ := List.forall_mem_cons.mp h
    have ih := ih hl
    rw [List.mapM_cons]
    by_cases hok : ok a
    · rw [if_pos hok] at ha
      obtain ⟨v, hv, hitem⟩ := Option.map_eq_some_iff.mp ha
      rw [hv]
      by_cases hall : ∀ a ∈ l, ok a
      · rw [if_pos hall] at ih
        obtain ⟨vs, hvs, hitems⟩ := Option.map_eq_some_iff.mp ih
        rw [hvs, if_pos (List.forall_mem_cons.mpr ⟨hok, hall⟩), List.map_cons, ← hitem, ← hitems]
        rfl
      · rw [if_neg hall, Option.map_eq_none_iff] at ih
        rw [ih, if_neg fun hcons => hall (List.forall_mem_cons.mp hcons).2]
        rfl
    · rw [if_neg hok, Option.map_eq_none_iff] at ha
      rw [ha, if_neg fun hcons => hok (List.forall_mem_cons.mp hcons).1]
      rfl

theorem value_format (format : CaptureFormatDescriptor) :
    (formatValue format).map value =
      if Countable format then some (formatItem format) else none := by
  unfold formatValue unsigned
  by_cases h : Countable format
  · have ⟨hwidth, hheight, hfps⟩ := h
    rw [if_pos hwidth, if_pos hheight, if_pos hfps, if_pos h]
    exact congrArg some (value_dictionary _)
  · rw [if_neg h]
    unfold Countable at h
    split_ifs <;> simp_all

theorem value_camera (capability : CameraCapability) :
    (cameraValue capability).map value =
      if ∀ format ∈ sorted capability.formats, Countable format then some (cameraItem capability)
      else none := by
  have hformats := @mapM_value _ formatValue formatItem Countable _ (sorted capability.formats)
    fun format _ => value_format format
  unfold cameraValue cameraItem cameraFields
  by_cases hall : ∀ format ∈ sorted capability.formats, Countable format
  · rw [if_pos hall] at hformats ⊢
    obtain ⟨formats, hsome, hitems⟩ := Option.map_eq_some_iff.mp hformats
    rw [hsome, ← hitems]
    exact congrArg some (value_dictionary _)
  · rw [if_neg hall, Option.map_eq_none_iff] at hformats
    rw [hformats, if_neg hall]
    rfl

theorem encoded_capabilities (cs : List CameraCapability) :
    (capabilities cs).map ControlMessage.encoded =
      if ∀ c ∈ cs, ∀ format ∈ sorted c.formats, Countable format then
        some (Message.encode (makeMessage "caps" (capsFields cs)))
      else none := by
  have hcameras := @mapM_value _ cameraValue cameraItem
    (fun c => ∀ format ∈ sorted c.formats, Countable format) _ cs fun c _ => value_camera c
  unfold capabilities capsFields
  by_cases hall : ∀ c ∈ cs, ∀ format ∈ sorted c.formats, Countable format
  · rw [if_pos hall] at hcameras ⊢
    obtain ⟨cameras, hsome, hitems⟩ := Option.map_eq_some_iff.mp hcameras
    rw [hsome, ← hitems]
    exact congrArg some (encoded_make _ _)
  · rw [if_neg hall, Option.map_eq_none_iff] at hcameras
    rw [hcameras, if_neg hall]
    rfl

end Bytes

/-! ### What the parsers want -/

section Parsed

theorem isSome_guard_bind {α : Type} {p : Prop} [Decidable p] {result : Option α} :
    ((guard p : Option Unit).bind fun _ => result).isSome ↔ p ∧ result.isSome := by
  by_cases hp : p <;> simp [guard, hp]

/-- Within the bounds of the PC. -/
def Sized (format : CaptureFormatDescriptor) : Prop :=
  1 ≤ format.width ∧ format.width ≤ 4096 ∧ 1 ≤ format.height ∧ format.height ≤ 4096

/-- The sizes come from 32-bit numbers, and two rates are offered. -/
structure Offered (format : CaptureFormatDescriptor) : Prop where
  width : format.width < 2 ^ 31
  height : format.height < 2 ^ 31
  rate : format.framesPerSecond = 30 ∨ format.framesPerSecond = 60

theorem find_format (width height fps : UInt64) {key : String} (hkey : Ascii key) :
    find (puts [("width", .unsigned width), ("height", .unsigned height), ("fps", .unsigned fps)])
        key =
      [("width", Value.unsigned width), ("height", .unsigned height),
        ("fps", .unsigned fps)].lookup key :=
  find_puts (by decide : Keys ["width", "height", "fps"]) hkey

theorem isSome_parseFormat (width height fps : UInt64) :
    (parseFormat (.map (puts [("width", .unsigned width), ("height", .unsigned height),
        ("fps", .unsigned fps)]))).isSome ↔
      width ≠ 0 ∧ height ≠ 0 ∧ fps ≠ 0 ∧ width ≤ 4096 ∧ height ≤ 4096 ∧ fps ≤ 120 := by
  have honly : onlyFields (puts [("width", .unsigned width), ("height", .unsigned height),
      ("fps", .unsigned fps)]) ["width", "height", "fps"] = true :=
    onlyFields_puts (List.Subset.refl _)
  unfold parseFormat unsignedAt
  dsimp only
  rw [honly]
  simp (disch := decide) only [find_format]
  simp [List.lookup_cons, isSome_guard_bind]

theorem toNat_ofInt {number : ℤ} (h : number < 2 ^ 31) :
    (UInt64.ofNat number.toNat).toNat = number.toNat := by
  refine UInt64.toNat_ofNat_of_lt' ?_
  have hsize : UInt64.size = 2 ^ 64 := rfl
  omega

theorem isSome_parse_formatItem {format : CaptureFormatDescriptor} (h : Offered format) :
    (parseFormat (formatItem format)).isSome ↔ Sized format := by
  obtain ⟨hwidth, hheight, hrate⟩ := h
  have hwide := toNat_ofInt hwidth
  have hhigh := toNat_ofInt hheight
  have hfast := @toNat_ofInt format.framesPerSecond (by omega)
  unfold formatItem formatFields Sized
  rw [isSome_parseFormat]
  simp only [UInt64.le_iff_toNat_le, ne_eq, ← UInt64.toNat_inj, hwide, hhigh, hfast]
  simp only [UInt64.reduceToNat]
  omega

theorem isSome_parse_cameraItem (capability : CameraCapability) :
    (parseCamera (cameraItem capability)).isSome ↔
      capability.camera.id.1 ≠ [] ∧
        ∀ format ∈ sorted capability.formats, (parseFormat (formatItem format)).isSome := by
  have honly : onlyFields (puts (cameraFields capability))
      ["id", "name", "position", "lens", "formats"] = true := onlyFields_puts (List.Subset.refl _)
  have hfind {key : String} (hkey : Ascii key) :
      find (puts (cameraFields capability)) key = (cameraFields capability).lookup key :=
    find_puts (by decide : Keys ["id", "name", "position", "lens", "formats"]) hkey
  have hid : textAt (puts (cameraFields capability)) "id" = some capability.camera.id.1 := by
    unfold textAt
    rw [hfind (by decide)]
    rfl
  have hname : textAt (puts (cameraFields capability)) "name" = some capability.camera.name.1 := by
    unfold textAt
    rw [hfind (by decide)]
    rfl
  have hposition : textAt (puts (cameraFields capability)) "position" =
      some (literal capability.camera.position.rawValue) := by
    unfold textAt
    rw [hfind (by decide)]
    rfl
  have hlens : textAt (puts (cameraFields capability)) "lens" =
      some (literal capability.camera.lens.rawValue) := by
    unfold textAt
    rw [hfind (by decide)]
    rfl
  have harray : arrayAt (puts (cameraFields capability)) "formats" =
      some ((sorted capability.formats).map formatItem) := by
    unfold arrayAt
    rw [hfind (by decide)]
    rfl
  have hformats := @isSome_mapM _ _ parseFormat ((sorted capability.formats).map formatItem)
  rw [List.forall_mem_map] at hformats
  unfold cameraItem parseCamera
  dsimp only
  rw [honly, hid, hname, hposition, hlens, harray, ← hformats]
  simp only [Option.bind_eq_bind, Option.bind_some, isSome_guard_bind]
  generalize ((sorted capability.formats).map formatItem).mapM parseFormat = result
  cases result <;> simp

theorem isSome_parseCaps (cs : List CameraCapability) :
    (parseCaps (makeMessage "caps" (capsFields cs))).isSome ↔
      ∀ c ∈ cs, (parseCamera (cameraItem c)).isSome := by
  have hfind {key : String} (hkey : Ascii key) :
      find (makeMessage "caps" (capsFields cs)).fields key = (capsFields cs).lookup key :=
    find_puts (by decide : Keys ["cameras", "codecs"]) hkey
  have hshaped : (makeMessage "caps" (capsFields cs)).shaped "caps" ["cameras", "codecs"] = true :=
    shaped_makeMessage (List.Subset.refl _)
  have harray : arrayAt (makeMessage "caps" (capsFields cs)).fields "cameras" =
      some (cs.map cameraItem) := by
    unfold arrayAt
    rw [hfind (by decide)]
    rfl
  have hnames : arrayAt (makeMessage "caps" (capsFields cs)).fields "codecs" =
      some [.text (literal "hevc"), .text (literal "h264")] := by
    unfold arrayAt
    rw [hfind (by decide)]
    rfl
  have hcodecs : [Value.text (literal "hevc"), .text (literal "h264")].mapM parseCodec =
      some [literal "hevc", literal "h264"] := by decide
  have hcameras := @isSome_mapM _ _ parseCamera (cs.map cameraItem)
  rw [List.forall_mem_map] at hcameras
  unfold parseCaps
  rw [hshaped, harray, hnames, ← hcameras]
  simp only [Option.bind_eq_bind, Option.bind_some, hcodecs, isSome_guard_bind]
  cases (cs.map cameraItem).mapM parseCamera <;> simp

end Parsed

/-! ### Sizes -/

section Sizes

def textSize (text : Bytes) : ℕ := headSize (.ofNat text.length) + text.length

/-- The names of the fields take 17 bytes. -/
def formatSize (format : CaptureFormatDescriptor) : ℕ :=
  1 + 17 + headSize (.ofNat format.width.toNat) + headSize (.ofNat format.height.toNat) +
    headSize (.ofNat format.framesPerSecond.toNat)

/-- The names of the fields take 30 bytes. -/
def cameraSize (capability : CameraCapability) : ℕ :=
  1 + 30 + textSize capability.camera.id.1 + textSize capability.camera.name.1 +
    textSize (literal capability.camera.position.rawValue) +
    textSize (literal capability.camera.lens.rawValue) +
    headSize (.ofNat capability.formats.length) + (capability.formats.map formatSize).sum

/-- The type takes 7 bytes, the codecs take 18. -/
def capsSize (capabilities : List CameraCapability) : ℕ :=
  1 + 7 + 18 + 8 + headSize (.ofNat capabilities.length) + (capabilities.map cameraSize).sum

theorem length_encode_text (text : Bytes) :
    (Cbor.Codec.encode (.text text)).length = textSize text := by
  rw [Cbor.Codec.encode, List.length_append, length_appendHead]
  rfl

theorem length_encode_unsigned (number : UInt64) :
    (Cbor.Codec.encode (.unsigned number)).length = headSize number :=
  length_appendHead _ _

theorem length_encode_array {α : Type} (l : List α) (item : α → Value) :
    (Cbor.Codec.encode (.array (l.map item))).length =
      headSize (.ofNat l.length) + (l.map fun a => (Cbor.Codec.encode (item a)).length).sum := by
  rw [Cbor.Codec.encode, List.length_append, length_appendHead, length_encodeItems, List.length_map,
    List.map_map]
  rfl

theorem sorted_perm (formats : List CaptureFormatDescriptor) : (sorted formats).Perm formats :=
  List.perm_insertionSort _ formats

theorem length_formatItem (format : CaptureFormatDescriptor) :
    (Cbor.Codec.encode (formatItem format)).length = formatSize format := by
  have hwidth : headSize (.ofNat (literal "width").length) + (literal "width").length = 6 := rfl
  have hheight : headSize (.ofNat (literal "height").length) + (literal "height").length = 7 := rfl
  have hfps : headSize (.ofNat (literal "fps").length) + (literal "fps").length = 4 := rfl
  have hsize := @length_encode_puts (formatFields format) (by decide : Keys ["width", "height", "fps"])
  simp only [formatFields, List.map_cons, List.map_nil, List.sum_cons, List.sum_nil, entrySize,
    length_encode_unsigned, hwidth, hheight, hfps, List.length_cons, List.length_nil] at hsize
  have hhead : headSize (.ofNat (0 + 1 + 1 + 1)) = 1 := rfl
  unfold formatItem formatFields formatSize
  omega

theorem length_cameraItem (capability : CameraCapability) :
    (Cbor.Codec.encode (cameraItem capability)).length = cameraSize capability := by
  have hid : headSize (.ofNat (literal "id").length) + (literal "id").length = 3 := rfl
  have hname : headSize (.ofNat (literal "name").length) + (literal "name").length = 5 := rfl
  have hposition : headSize (.ofNat (literal "position").length) + (literal "position").length = 9 :=
    rfl
  have hlens : headSize (.ofNat (literal "lens").length) + (literal "lens").length = 5 := rfl
  have hformats : headSize (.ofNat (literal "formats").length) + (literal "formats").length = 8 :=
    rfl
  have hsize := @length_encode_puts (cameraFields capability)
    (by decide : Keys ["id", "name", "position", "lens", "formats"])
  simp only [cameraFields, List.map_cons, List.map_nil, List.sum_cons, List.sum_nil, entrySize,
    length_encode_text, length_encode_array, hid, hname, hposition, hlens, hformats,
    List.length_cons, List.length_nil] at hsize
  have hhead : headSize (.ofNat (0 + 1 + 1 + 1 + 1 + 1)) = 1 := rfl
  have hperm := sorted_perm capability.formats
  have hlist : (capability.formats.map fun f => (Cbor.Codec.encode (formatItem f)).length) =
      capability.formats.map formatSize := List.map_congr_left fun f _ => length_formatItem f
  rw [hperm.length_eq, (hperm.map _).sum_nat, hlist] at hsize
  unfold cameraItem cameraFields cameraSize
  omega

theorem length_caps (cs : List CameraCapability) :
    (Message.encode (makeMessage "caps" (capsFields cs))).length = capsSize cs := by
  have ht : entrySize ("t", .text (literal "caps")) = 7 := rfl
  have hcameras : headSize (.ofNat (literal "cameras").length) + (literal "cameras").length = 8 :=
    rfl
  have hcodecs : entrySize ("codecs", .array [.text (literal "hevc"), .text (literal "h264")]) = 18 :=
    rfl
  have hsize := @length_encode_makeMessage (capsFields cs) "caps"
    (by decide : Keys ["t", "cameras", "codecs"])
  have hlist : (cs.map fun c => (Cbor.Codec.encode (cameraItem c)).length) = cs.map cameraSize :=
    List.map_congr_left fun c _ => length_cameraItem c
  simp only [capsFields, List.map_cons, List.map_nil, List.sum_cons, List.sum_nil, ht, hcodecs,
    List.length_cons, List.length_nil] at hsize
  rw [entrySize, length_encode_array, hlist, hcameras] at hsize
  have hhead : headSize (.ofNat (0 + 1 + 1 + 1)) = 1 := rfl
  unfold capsFields capsSize
  omega

end Sizes

/-! ### Through the codec -/

section Carried

theorem ascii_position (position : CameraPosition) : Ascii position.rawValue := by
  cases position <;> decide

theorem ascii_lens (lens : CameraLens) : Ascii lens.rawValue := by
  cases lens <;> decide

theorem carried_formatItem {levels : ℕ} (format : CaptureFormatDescriptor) :
    Carried (levels + 1) (formatItem format) :=
  carried_puts (by decide : ∀ key ∈ ["width", "height", "fps"], Ascii key)
    (by decide : 3 ≤ kMaxCollectionElements.toNat) (by simp [formatFields])

theorem carried_cameraItem {levels : ℕ} {capability : CameraCapability}
    (hfits : (Cbor.Codec.encode (cameraItem capability)).length ≤ kMaxPayloadBytes) :
    Carried (levels + 3) (cameraItem capability) := by
  have hfind : find (puts (cameraFields capability)) "formats" =
      some (.array ((sorted capability.formats).map formatItem)) :=
    find_puts (by decide : Keys ["id", "name", "position", "lens", "formats"]) (by decide)
  have hlen := length_found hfind
  have hformats : Carried (levels + 2) (.array ((sorted capability.formats).map formatItem)) := by
    refine carried_array (count_le_of_length ?_ ?_) ?_
    · refine List.forall_mem_map.mpr fun format _ => ?_
      have hsize := length_formatItem format
      unfold formatSize at hsize
      omega
    · unfold cameraItem at hfits
      rw [Cbor.Codec.encode, List.length_append] at hfits
      omega
    · exact List.forall_mem_map.mpr fun format _ => carried_formatItem format
  refine carried_puts (by decide : ∀ key ∈ ["id", "name", "position", "lens", "formats"], Ascii key)
    (by decide : 5 ≤ kMaxCollectionElements.toNat) ?_
  simp only [cameraFields, List.forall_mem_cons]
  exact ⟨carried_text capability.camera.id.2, carried_text capability.camera.name.2,
    carried_text (wellFormed_literal (ascii_position _)),
    carried_text (wellFormed_literal (ascii_lens _)), hformats, List.forall_mem_nil _⟩

theorem decode_caps {cs : List CameraCapability} (hfits : capsSize cs ≤ kMaxPayloadBytes) :
    Message.decode (Message.encode (makeMessage "caps" (capsFields cs))) =
      .ok (makeMessage "caps" (capsFields cs)) := by
  rw [← length_caps] at hfits
  have hfind : find (makeMessage "caps" (capsFields cs)).fields "cameras" =
      some (.array (cs.map cameraItem)) :=
    find_puts (by decide : Keys ["cameras", "codecs"]) (by decide)
  have hcameras := (length_field_le hfind (by decide)).trans hfits
  refine decode_encode_makeMessage (by decide) (by decide : Keys ["t", "cameras", "codecs"])
    (by decide : 2 < kMaxCollectionElements.toNat) ?_ hfits
  have hcodecs : ∀ text ∈ [literal "hevc", literal "h264"], WellFormed text := by
    simp only [List.forall_mem_cons]
    exact ⟨wellFormed_literal (by decide), wellFormed_literal (by decide), List.forall_mem_nil _⟩
  simp only [capsFields, List.forall_mem_cons]
  refine ⟨carried_array (count_le_of_length ?_ hcameras) ?_,
    carried_texts (by decide) hcodecs, List.forall_mem_nil _⟩
  · refine List.forall_mem_map.mpr fun c _ => ?_
    have hsize := length_cameraItem c
    unfold cameraSize at hsize
    omega
  · refine List.forall_mem_map.mpr fun c hmem => carried_cameraItem ?_
    have hitem := length_item_le (List.mem_map_of_mem (f := cameraItem) hmem)
    rw [Cbor.Codec.encode, List.length_append] at hcameras
    omega

end Carried

/-! ### Which messages are taken -/

section Taken

/-- Cameras with a name, formats within the bounds of the PC, and not too many of them. -/
structure CapsFit (devices : List AVCaptureDevice) : Prop where
  size : capsSize (CaptureEngine.capabilities devices) ≤ kMaxPayloadBytes
  ids : ∀ device ∈ devices, device.uniqueID.1 ≠ []
  formats : ∀ device ∈ devices, ∀ format ∈ device.formats,
    format.supports 30 = true ∨ format.supports 60 = true →
      1 ≤ format.width.toInt ∧ format.width.toInt ≤ 4096 ∧ 1 ≤ format.height.toInt ∧
        format.height.toInt ≤ 4096

structure RejectFit (generation : UInt64) (code message : Text) : Prop where
  generation : generation ≠ 0
  code : 1 ≤ code.1.length ∧ code.1.length ≤ 128
  message : 1 ≤ message.1.length ∧ message.1.length ≤ 1024

theorem mem_offered {device : AVCaptureDevice} {f : CaptureFormatDescriptor} :
    f ∈ offered device ↔ ∃ format ∈ device.formats, ∃ fps ∈ [30, 60], format.supports fps = true ∧
      f = ⟨format.width.toInt, format.height.toInt, fps⟩ := by
  unfold offered
  simp only [List.mem_flatMap, List.mem_filterMap, Option.ite_none_right_eq_some,
    Option.some.injEq, eq_comm (a := f)]

theorem Offered.of_mem {device : AVCaptureDevice} {f : CaptureFormatDescriptor}
    (h : f ∈ offered device) : Offered f := by
  obtain ⟨format, -, fps, hfps, -, rfl⟩ := mem_offered.mp h
  refine ⟨format.width.toInt_lt, format.height.toInt_lt, ?_⟩
  simp only [List.mem_cons, List.not_mem_nil, or_false] at hfps
  rcases hfps with rfl | rfl
  · exact .inl rfl
  · exact .inr rfl

/-- The formats of all capabilities are those that the devices offer. -/
theorem forall_formats {devices : List AVCaptureDevice} {P : CaptureFormatDescriptor → Prop} :
    (∀ c ∈ CaptureEngine.capabilities devices, ∀ f ∈ sorted c.formats, P f) ↔
      ∀ device ∈ devices, ∀ f ∈ offered device, P f := by
  unfold CaptureEngine.capabilities
  rw [List.forall_mem_map]
  refine forall₂_congr fun device _ => forall_congr' fun f => ?_
  rw [(sorted_perm _).mem_iff, List.mem_dedup]

theorem forall_sized {device : AVCaptureDevice} :
    (∀ f ∈ offered device, Sized f) ↔ ∀ format ∈ device.formats,
      format.supports 30 = true ∨ format.supports 60 = true →
        1 ≤ format.width.toInt ∧ format.width.toInt ≤ 4096 ∧ 1 ≤ format.height.toInt ∧
          format.height.toInt ≤ 4096 := by
  constructor
  · rintro h format hmem (h30 | h60)
    · exact h _ (mem_offered.mpr ⟨format, hmem, 30, by simp, h30, rfl⟩)
    · exact h _ (mem_offered.mpr ⟨format, hmem, 60, by simp, h60, rfl⟩)
  · intro h f hf
    obtain ⟨format, hmem, fps, hfps, hsupports, rfl⟩ := mem_offered.mp hf
    simp only [List.mem_cons, List.not_mem_nil, or_false] at hfps
    rcases hfps with rfl | rfl
    · exact h format hmem (.inl hsupports)
    · exact h format hmem (.inr hsupports)

/-- What `parseCaps` wants of the cameras. -/
theorem isSome_parse_offered {devices : List AVCaptureDevice} :
    (parseCaps (makeMessage "caps" (capsFields (CaptureEngine.capabilities devices)))).isSome ↔
      (∀ device ∈ devices, device.uniqueID.1 ≠ []) ∧
        ∀ device ∈ devices, ∀ f ∈ offered device, Sized f := by
  rw [isSome_parseCaps, ← forall₂_and]
  unfold CaptureEngine.capabilities
  rw [List.forall_mem_map]
  refine forall₂_congr fun device _ => ?_
  rw [isSome_parse_cameraItem]
  refine and_congr Iff.rfl (forall_congr' fun f => ?_)
  rw [(sorted_perm _).mem_iff, List.mem_dedup]
  exact imp_congr_right fun hf => isSome_parse_formatItem (.of_mem hf)

theorem capsTaken_iff (devices : List AVCaptureDevice) : CapsTaken devices ↔ CapsFit devices := by
  have hencoded := encoded_capabilities (CaptureEngine.capabilities devices)
  have hlength := length_caps (CaptureEngine.capabilities devices)
  constructor
  · rintro ⟨m, hm, received, hdecode, hparse⟩
    rw [hm, Option.map_some] at hencoded
    split_ifs at hencoded
    rw [Option.some.inj hencoded] at hdecode
    have hfits : capsSize (CaptureEngine.capabilities devices) ≤ kMaxPayloadBytes := by
      by_contra hlong
      unfold Message.decode at hdecode
      rw [if_pos (by omega)] at hdecode
      cases hdecode
    rw [decode_caps hfits] at hdecode
    obtain rfl := Except.ok.inj hdecode
    obtain ⟨hids, hsized⟩ := isSome_parse_offered.mp hparse
    exact ⟨hfits, hids, fun device hmem => forall_sized.mp (hsized device hmem)⟩
  · rintro ⟨hfits, hids, hformats⟩
    have hsized : ∀ device ∈ devices, ∀ f ∈ offered device, Sized f := fun device hmem =>
      forall_sized.mpr (hformats device hmem)
    have hcountable : ∀ c ∈ CaptureEngine.capabilities devices, ∀ f ∈ sorted c.formats,
        Countable f := by
      refine forall_formats.mpr fun device hmem f hf => ?_
      have hs := hsized device hmem f hf
      have hrate := (Offered.of_mem hf).rate
      unfold Sized at hs
      unfold Countable
      omega
    rw [if_pos hcountable] at hencoded
    obtain ⟨m, hm, hbytes⟩ := Option.map_eq_some_iff.mp hencoded
    exact ⟨m, hm, _, hbytes ▸ decode_caps hfits, isSome_parse_offered.mpr ⟨hids, hsized⟩⟩

/-! #### Rejections -/

variable {generation : UInt64} {code message : Text}

def rejectFields (generation : UInt64) (code message : Text) : List (String × Value) :=
  [("generation", .unsigned generation), ("code", .text code.1), ("message", .text message.1)]

theorem isSome_parse_reject :
    (parseFormatReject (makeMessage "format_reject" (rejectFields generation code message))).isSome ↔
      RejectFit generation code message := by
  obtain ⟨hshaped, hfind⟩ :
      (makeMessage "format_reject" (rejectFields generation code message)).shaped "format_reject"
        ["generation", "code", "message"] = true ∧
      ∀ key, Ascii key →
        find (makeMessage "format_reject" (rejectFields generation code message)).fields key = _ :=
    read_makeMessage (by decide : Keys ["generation", "code", "message"]) (List.Subset.refl _)
  have hfit : RejectFit generation code message ↔ generation ≠ 0 ∧
      (code.1 ≠ [] ∧ code.1.length ≤ 128) ∧ message.1 ≠ [] ∧ message.1.length ≤ 1024 := by
    rw [← List.length_pos_iff, ← List.length_pos_iff]
    exact ⟨fun h => ⟨h.1, h.2, h.3⟩, fun h => ⟨h.1, h.2.1, h.2.2⟩⟩
  rw [hfit]
  unfold parseFormatReject Message.unsignedInt Message.text unsignedAt textAt
  rw [hshaped]
  simp (disch := decide) only [hfind]
  simp [rejectFields, List.lookup_cons, isSome_guard_bind]

theorem decode_reject
    (hfits : (Message.encode (makeMessage "format_reject"
      (rejectFields generation code message))).length ≤ kMaxPayloadBytes) :
    Message.decode (Message.encode (makeMessage "format_reject"
        (rejectFields generation code message))) =
      .ok (makeMessage "format_reject" (rejectFields generation code message)) := by
  refine decode_encode_makeMessage (by decide)
    (by decide : Keys ["t", "generation", "code", "message"])
    (by decide : 3 < kMaxCollectionElements.toNat) ?_ hfits
  simp only [rejectFields, List.forall_mem_cons]
  exact ⟨carried_unsigned _, carried_text code.2, carried_text message.2, List.forall_mem_nil _⟩

theorem rejectTaken_iff :
    RejectTaken generation code message ↔ RejectFit generation code message := by
  have hencoded : (formatRejected generation code message).encoded =
      Message.encode (makeMessage "format_reject" (rejectFields generation code message)) :=
    encoded_make _ _
  unfold RejectTaken Taken
  rw [hencoded]
  constructor
  · rintro ⟨received, hdecode, hparse⟩
    have hfits : (Message.encode (makeMessage "format_reject"
        (rejectFields generation code message))).length ≤ kMaxPayloadBytes := by
      by_contra hlong
      unfold Message.decode at hdecode
      rw [if_pos (by omega)] at hdecode
      cases hdecode
    rw [decode_reject hfits] at hdecode
    obtain rfl := Except.ok.inj hdecode
    exact isSome_parse_reject.mp hparse
  · intro h
    have hcode := h.code
    have hmessage := h.message
    have hfits : (Message.encode (makeMessage "format_reject"
        (rejectFields generation code message))).length ≤ kMaxPayloadBytes := by
      have hsize := @length_makeMessage_le (rejectFields generation code message) "format_reject"
        1100 (by decide) ?_
      · have hmax : kMaxPayloadBytes = 1048576 := rfl
        have hcount : (rejectFields generation code message).length = 3 := rfl
        omega
      · have hg := length_unsigned_le generation
        have hc := length_text_le code.1
        have hm := length_text_le message.1
        have hg' : (literal "generation").length = 10 := rfl
        have hc' : (literal "code").length = 4 := rfl
        have hm' : (literal "message").length = 7 := rfl
        simp only [rejectFields, List.forall_mem_cons]
        exact ⟨by omega, by omega, by omega, List.forall_mem_nil _⟩
    exact ⟨_, decode_reject hfits, isSome_parse_reject.mpr h⟩

end Taken

/-- **Which messages the PC takes.** Capabilities: exactly those of cameras with an identifier and
with formats (among those for 30 or 60 frames a second) of at most 4096 by 4096 pixels, in at most a
mebibyte. Rejections: exactly those with a generation and with texts that are not empty and not too
long. -/
theorem taken_iff (devices : List AVCaptureDevice) (generation : UInt64) (code message : Text) :
    (CapsTaken devices ↔ CapsFit devices) ∧
      (RejectTaken generation code message ↔ RejectFit generation code message) :=
  ⟨capsTaken_iff devices, rejectTaken_iff⟩

/-! ### A large sensor and a silent error -/

def text (s : String) (h : Ascii s) : Text := ⟨literal s, wellFormed_literal h⟩

/-- Its largest format is that of a sensor with 48 million pixels. -/
def largeSensor : AVCaptureDevice where
  uniqueID := text "0" (by decide)
  localizedName := text "Back Camera" (by decide)
  position := .back
  deviceType := .builtInWideAngleCamera
  formats := [⟨1920, 1080, [⟨1, 60⟩]⟩, ⟨8064, 6048, [⟨1, 30⟩]⟩]

theorem supports_largeSensor : Format.supports ⟨8064, 6048, [⟨1, 30⟩]⟩ 30 = true := by
  simp [Format.supports]

theorem not_taken_largeSensor :
    ¬ CapsTaken [largeSensor] ∧
      ¬ RejectTaken 1 (text "format_unavailable" (by decide)) (text "" (by decide)) := by
  constructor
  · rw [capsTaken_iff]
    rintro ⟨-, -, hformats⟩
    have hlarge := hformats largeSensor (by simp) ⟨8064, 6048, [⟨1, 30⟩]⟩ (by simp [largeSensor])
      (.inl supports_largeSensor)
    exact absurd hlarge.2.1 (by decide)
  · rw [rejectTaken_iff]
    rintro ⟨-, -, hmessage⟩
    exact absurd hmessage.1 (by decide)

end RemoteCam.Control.Capabilities
