import RemoteCam.Control.Capabilities
import RemoteCam.Lib.Transitions
import RemoteCam.Phone.Camera

/-! # The capture session

`CaptureEngine` is an actor: its calls run one at a time. Each step of `configure` may fail, in part
after the camera has been set to the new format and the old input has been taken out of the session.

`filming_of_run`: the session has no input but the engine's own, the calls of `apply` are allowed by
the camera they are made on, and from a successful `configure` to the next one the session films with
the selected camera, in a format of the requested size that reaches the requested rate. -/

namespace RemoteCam.Phone.CaptureEngine

open RemoteCam.Lib.Transitions
open RemoteCam.Control.Capabilities (Position DeviceType Format)
open RemoteCam.Control.Commands (Mode CameraControlUpdate)
open RemoteCam.Control.Numbers (Double one one32)
open RemoteCam.Phone.Camera
open RemoteCam.Phone.Transport (StreamConfiguration)

/-! ### Cameras -/

/-- Identifiers `ι`, as the phone compares them, and times `τ`. -/
structure AVCaptureDevice (ι τ : Type) where
  uniqueID : ι
  position : Position
  deviceType : DeviceType
  formats : List Format
  activeFormat : Format
  abilities : Abilities τ
  settings : Settings τ

def isVirtualMultiLens : DeviceType → Bool
  | .builtInTripleCamera | .builtInDualWideCamera | .builtInDualCamera => true
  | _ => false

def isBack : Position → Bool
  | .back => true
  | _ => false

def isWideAngle : DeviceType → Bool
  | .builtInWideAngleCamera => true
  | _ => false

/-- The size of a format, and a rate that it reaches. -/
def matching (configuration : StreamConfiguration) (format : Format) : Bool :=
  format.width.toInt = configuration.width && format.height.toInt = configuration.height &&
    format.supports configuration.framesPerSecond

inductive CaptureEngineError where
  | invalidConfiguration
  | noCamera
  | cannotAddInput
  | cannotAddOutput
  | unsupportedFormat
  /-- An error of the framework. -/
  | framework
  deriving DecidableEq, Repr

def default1080p : StreamConfiguration where
  codec := .hevc
  width := 1920
  height := 1080
  framesPerSecond := 60
  bitrate := 12000000

structure World (ι τ : Type) where
  /-- In the order of `discoverDevices`. -/
  devices : List (AVCaptureDevice ι τ)
  /-- The devices of the inputs of the session. -/
  inputs : List ι := []
  hasOutput : Bool := false
  isRunning : Bool := false
  input : Option ι := none
  selectedDevice : Option ι := none
  configuration : StreamConfiguration := default1080p
  requestedFocusMode : Mode := .auto
  requestedWhiteBalanceMode : Mode := .auto

/-- How the framework answers. -/
structure Answers (τ : Type) where
  opensInput : Bool
  locks : Bool
  canAddInput : Bool
  canAddPreviousInput : Bool
  canAddOutput : Bool
  /-- The device in its new format. -/
  abilities : Abilities τ
  settings : Settings τ

section Engine
variable {ι τ : Type} [DecidableEq ι] [LinearOrder τ]

def World.device (s : World ι τ) (id : ι) : Option (AVCaptureDevice ι τ) :=
  s.devices.find? fun device => device.uniqueID = id

/-- The devices with a new value for one of them. -/
def World.store (s : World ι τ) (device : AVCaptureDevice ι τ) : World ι τ :=
  { s with
    devices := s.devices.map fun other =>
      if other.uniqueID = device.uniqueID then device else other }

def choose (devices : List (AVCaptureDevice ι τ)) (deviceID : Option ι) :
    Option (AVCaptureDevice ι τ) :=
  (devices.find? fun device => some device.uniqueID = deviceID).or <|
    (devices.find? fun device => isBack device.position && isVirtualMultiLens device.deviceType).or <|
      (devices.find? fun device => isBack device.position && isWideAngle device.deviceType).or
        devices.head?

def selectFormat (device : AVCaptureDevice ι τ) (configuration : StreamConfiguration)
    (answers : Answers τ) : Except CaptureEngineError (AVCaptureDevice ι τ) :=
  match device.formats.find? (matching configuration) with
  | none => .error .unsupportedFormat
  | some format =>
    if !answers.locks then .error .framework
    else
      .ok { device with
        activeFormat := format
        abilities := answers.abilities
        settings := answers.settings }

/-- The session, from `beginConfiguration` to `commitConfiguration`. -/
def reconnect (s : World ι τ) (id : ι) (configuration : StreamConfiguration) (answers : Answers τ) :
    World ι τ × Option CaptureEngineError :=
  let others := s.inputs.filter fun other => some other ≠ s.input
  let restored := if answers.canAddPreviousInput then others ++ s.input.toList else others
  if !answers.canAddInput then ({ s with inputs := restored }, some .cannotAddInput)
  else if !s.hasOutput && !answers.canAddOutput then
    ({ s with inputs := restored }, some .cannotAddOutput)
  else
    ({ s with
        inputs := others ++ [id]
        hasOutput := true
        input := some id
        selectedDevice := some id
        configuration
        requestedFocusMode := .auto
        requestedWhiteBalanceMode := .auto }, none)

def configure (s : World ι τ) (configuration : StreamConfiguration) (deviceID : Option ι)
    (answers : Answers τ) : World ι τ × Option CaptureEngineError :=
  match configuration.validated with
  | .error _ => (s, some .invalidConfiguration)
  | .ok configuration =>
    match choose s.devices deviceID with
    | none => (s, some .noCamera)
    | some device =>
      if !answers.opensInput then (s, some .framework)
      else
        match selectFormat device configuration answers with
        | .error error => (s, some error)
        | .ok device => reconnect (s.store device) device.uniqueID configuration answers

/-- The modes that `apply` notes down. -/
def requestedFocus (a : Abilities τ) (u : CameraControlUpdate) (before : Mode) : Mode :=
  let before := if (point u).isSome then .auto else before
  match u.focusMode with
  | some focusMode => focusMode
  | none =>
    if (u.focus.filter Control.Messages.isfinite).isSome &&
        a.isLockingFocusWithCustomLensPositionSupported then .manual
    else before

def requestedWhiteBalance (a : Abilities τ) (u : CameraControlUpdate) (before : Mode) : Mode :=
  match u.whiteBalanceMode with
  | some whiteBalanceMode => whiteBalanceMode
  | none =>
    if u.whiteBalanceKelvin.isSome && a.isLockingWhiteBalanceWithCustomDeviceGainsSupported then
      .manual
    else before

variable (seconds : Double → τ)

/-- `apply`; `locks` is the answer of `lockForConfiguration`. -/
def applyUpdate (s : World ι τ) (u : CameraControlUpdate) (locks : Bool) : World ι τ :=
  match s.selectedDevice.bind s.device with
  | some device =>
    if !locks then s
    else
      { s.store { device with settings := (apply seconds device.abilities u device.settings).1 } with
        requestedFocusMode := requestedFocus device.abilities u s.requestedFocusMode
        requestedWhiteBalanceMode :=
          requestedWhiteBalance device.abilities u s.requestedWhiteBalanceMode }
  | none => s

inductive Action (ι τ : Type) where
  | configure (configuration : StreamConfiguration) (deviceID : Option ι) (answers : Answers τ)
  | switchCamera (deviceID : ι) (answers : Answers τ)
  | apply (update : CameraControlUpdate) (locks : Bool)
  | start
  | stop
  /-- The cameras adjust themselves. -/
  | adjust (devices : List (AVCaptureDevice ι τ))

/-- The same camera, in the same format. -/
structure Same (device device' : AVCaptureDevice ι τ) : Prop where
  uniqueID : device'.uniqueID = device.uniqueID
  formats : device'.formats = device.formats
  activeFormat : device'.activeFormat = device.activeFormat
  sane : Sane device'.abilities device'.settings

/-- The framework keeps the cameras within their ranges. -/
def enabled (s : World ι τ) : Action ι τ → Prop
  | .configure _ _ answers | .switchCamera _ answers => Sane answers.abilities answers.settings
  | .adjust devices => List.Forall₂ Same s.devices devices
  | _ => True

def next (s : World ι τ) : Action ι τ → World ι τ
  | .configure configuration deviceID answers => (configure s configuration deviceID answers).1
  | .switchCamera deviceID answers => (configure s s.configuration (some deviceID) answers).1
  | .apply update locks => applyUpdate seconds s update locks
  | .start => { s with isRunning := true }
  | .stop => { s with isRunning := false }
  | .adjust devices => { s with devices }

def engine : Machine (World ι τ) (Action ι τ) := ⟨enabled, next seconds⟩

/-! ### What holds -/

/-- The calls of `apply` are allowed. -/
def Careful (s : World ι τ) : Action ι τ → Prop
  | .apply update true =>
    ∀ device ∈ s.selectedDevice.bind s.device,
      ∀ c ∈ (apply seconds device.abilities update device.settings).2, c.Allowed device.abilities
  | _ => True

structure Consistent (s : World ι τ) : Prop where
  inputs : s.inputs <+: s.input.toList
  selected : s.selectedDevice = s.input
  known : ∀ id ∈ s.input, ∃ device ∈ s.devices, device.uniqueID = id
  configuration : s.configuration.validated = .ok s.configuration
  sane : ∀ device ∈ s.devices, Sane device.abilities device.settings
  nodup : (s.devices.map AVCaptureDevice.uniqueID).Nodup

/-- The session films with the selected camera, as requested. -/
structure Filming (s : World ι τ) : Prop where
  inputs : s.inputs = s.selectedDevice.toList
  output : s.hasOutput = true
  format : ∃ device, s.selectedDevice.bind s.device = some device ∧
    matching s.configuration device.activeFormat = true

/-- A call of `configure` that succeeds. -/
def Action.Succeeds (s : World ι τ) : Action ι τ → Prop
  | .configure configuration deviceID answers =>
    (CaptureEngine.configure s configuration deviceID answers).2 = none
  | .switchCamera deviceID answers =>
    (CaptureEngine.configure s s.configuration (some deviceID) answers).2 = none
  | _ => False

def Action.configures : Action ι τ → Bool
  | .configure .. | .switchCamera .. => true
  | _ => false

end Engine

/-! ### Devices that are stored -/

section Stored
variable {ι τ : Type} {s : World ι τ} {device : AVCaptureDevice ι τ}

/-- What `selectFormat` makes of a device. -/
theorem selectFormat_spec {device' : AVCaptureDevice ι τ} {configuration : StreamConfiguration}
    {answers : Answers τ} (h : selectFormat device configuration answers = .ok device') :
    device'.uniqueID = device.uniqueID ∧ matching configuration device'.activeFormat = true ∧
      device'.abilities = answers.abilities ∧ device'.settings = answers.settings := by
  unfold selectFormat at h
  split at h
  · cases h
  · next format hformat =>
    split_ifs at h
    obtain rfl := Except.ok.inj h
    exact ⟨rfl, List.find?_some hformat, rfl, rfl⟩

variable [DecidableEq ι]

theorem choose_mem {devices : List (AVCaptureDevice ι τ)} {deviceID : Option ι}
    (h : choose devices deviceID = some device) : device ∈ devices := by
  unfold choose at h
  rcases Option.or_eq_some_iff.mp h with h | ⟨-, h⟩
  · exact List.mem_of_find?_eq_some h
  rcases Option.or_eq_some_iff.mp h with h | ⟨-, h⟩
  · exact List.mem_of_find?_eq_some h
  rcases Option.or_eq_some_iff.mp h with h | ⟨-, h⟩
  · exact List.mem_of_find?_eq_some h
  · exact List.mem_of_mem_head? h

theorem map_uniqueID_store :
    (s.store device).devices.map AVCaptureDevice.uniqueID =
      s.devices.map AVCaptureDevice.uniqueID := by
  unfold World.store
  rw [List.map_map]
  refine List.map_congr_left fun other _ => ?_
  rw [Function.comp_apply]
  split_ifs with h
  · exact h.symm
  · rfl

theorem mem_of_device {id : ι} (h : s.device id = some device) :
    device ∈ s.devices ∧ device.uniqueID = id := by
  unfold World.device at h
  exact ⟨List.mem_of_find?_eq_some h, by simpa using List.find?_some h⟩

theorem device_store {before : AVCaptureDevice ι τ} (h : before ∈ s.devices)
    (hid : before.uniqueID = device.uniqueID) :
    (s.store device).device device.uniqueID = some device := by
  have hmem : device ∈ (s.store device).devices := List.mem_map.mpr ⟨before, h, if_pos hid⟩
  obtain ⟨found, hfound⟩ : ∃ found, (s.store device).device device.uniqueID = some found := by
    unfold World.device
    rw [← Option.isSome_iff_exists, List.find?_isSome]
    exact ⟨device, hmem, decide_eq_true rfl⟩
  obtain ⟨hstored, heq⟩ := mem_of_device hfound
  obtain ⟨other, -, rfl⟩ := List.mem_map.mp hstored
  rw [hfound]
  split_ifs at heq ⊢ with hsame
  · rfl
  · exact absurd heq hsame

end Stored

section Adjusted
variable {ι τ : Type} [LinearOrder τ]

theorem adjusted {devices devices' : List (AVCaptureDevice ι τ)}
    (h : List.Forall₂ Same devices devices') :
    devices'.map AVCaptureDevice.uniqueID = devices.map AVCaptureDevice.uniqueID ∧
      ∀ device ∈ devices', Sane device.abilities device.settings := by
  induction h with
  | nil => exact ⟨rfl, List.forall_mem_nil _⟩
  | cons hsame _ ih =>
    obtain ⟨hids, hsane⟩ := ih
    refine ⟨?_, List.forall_mem_cons.mpr ⟨hsame.sane, hsane⟩⟩
    rw [List.map_cons, List.map_cons, hsame.uniqueID, hids]

/-- The camera with an identifier, after all have adjusted themselves. -/
theorem find_adjusted [DecidableEq ι] {devices devices' : List (AVCaptureDevice ι τ)}
    (h : List.Forall₂ Same devices devices') {id : ι} {device : AVCaptureDevice ι τ}
    (hfound : devices.find? (fun other => other.uniqueID = id) = some device) :
    ∃ device', devices'.find? (fun other => other.uniqueID = id) = some device' ∧
      device'.activeFormat = device.activeFormat := by
  induction h with
  | nil => cases hfound
  | @cons other other' devices devices' hsame _ ih =>
    rw [List.find?_cons] at hfound ⊢
    rw [hsame.uniqueID]
    by_cases hid : other.uniqueID = id
    · rw [decide_eq_true hid] at hfound ⊢
      obtain rfl := Option.some.inj hfound
      exact ⟨other', rfl, hsame.activeFormat⟩
    · rw [decide_eq_false hid] at hfound ⊢
      exact ih hfound

end Adjusted

/-! ### Steps -/

section Steps
variable {ι τ : Type} [DecidableEq ι] [LinearOrder τ] {s : World ι τ}

theorem Consistent.others (I : Consistent s) :
    (s.inputs.filter fun other => some other ≠ s.input) = [] := by
  refine List.filter_eq_nil_iff.mpr fun id hid => ?_
  have hinput : s.input = some id := Option.mem_toList.mp (I.inputs.subset hid)
  simp [hinput]

/-- A device changes, and stays in its ranges. -/
theorem Consistent.store (I : Consistent s) {device : AVCaptureDevice ι τ}
    (h : Sane device.abilities device.settings) : Consistent (s.store device) := by
  refine ⟨I.inputs, I.selected, fun id hid => ?_, I.configuration, fun other hother => ?_, ?_⟩
  · obtain ⟨other, hother, rfl⟩ := I.known id hid
    have hmem : other.uniqueID ∈ (s.store device).devices.map AVCaptureDevice.uniqueID := by
      rw [map_uniqueID_store]
      exact List.mem_map_of_mem hother
    exact List.mem_map.mp hmem
  · obtain ⟨before, hbefore, rfl⟩ := List.mem_map.mp hother
    split_ifs
    · exact h
    · exact I.sane before hbefore
  · rw [map_uniqueID_store]
    exact I.nodup

/-- How a reconnection ends that succeeds. -/
structure Connected (s s' : World ι τ) (id : ι) (configuration : StreamConfiguration) : Prop where
  inputs : s'.inputs = [id]
  output : s'.hasOutput = true
  selected : s'.selectedDevice = some id
  configuration : s'.configuration = configuration
  devices : s'.devices = s.devices

theorem Consistent.reconnect (I : Consistent s) {id : ι} {configuration : StreamConfiguration}
    {answers : Answers τ} (hknown : ∃ device ∈ s.devices, device.uniqueID = id)
    (hvalid : configuration.validated = .ok configuration) :
    Consistent (CaptureEngine.reconnect s id configuration answers).1 ∧
      ((CaptureEngine.reconnect s id configuration answers).2 = none →
        Connected s (CaptureEngine.reconnect s id configuration answers).1 id configuration) := by
  have hfailed : ∀ inputs, inputs <+: s.input.toList → Consistent { s with inputs } :=
    fun _ hinputs => ⟨hinputs, I.selected, I.known, I.configuration, I.sane, I.nodup⟩
  have hrestored : (if answers.canAddPreviousInput then [] ++ s.input.toList else []) <+:
      s.input.toList := by
    split_ifs
    · exact List.prefix_rfl
    · exact List.nil_prefix
  unfold CaptureEngine.reconnect
  rw [I.others]
  dsimp only
  by_cases hinput : (!answers.canAddInput) = true
  · rw [if_pos hinput]
    exact ⟨hfailed _ hrestored, nofun⟩
  by_cases houtput : (!s.hasOutput && !answers.canAddOutput) = true
  · rw [if_neg hinput, if_pos houtput]
    exact ⟨hfailed _ hrestored, nofun⟩
  · rw [if_neg hinput, if_neg houtput]
    refine ⟨⟨List.prefix_rfl, rfl, fun other hother => ?_, hvalid, I.sane, I.nodup⟩,
      fun _ => ⟨rfl, rfl, rfl, rfl, rfl⟩⟩
    obtain rfl := Option.some.inj hother
    exact hknown

theorem Consistent.configure (I : Consistent s) {configuration : StreamConfiguration}
    {deviceID : Option ι} {answers : Answers τ} (h : Sane answers.abilities answers.settings) :
    Consistent (CaptureEngine.configure s configuration deviceID answers).1 ∧
      ((CaptureEngine.configure s configuration deviceID answers).2 = none →
        Filming (CaptureEngine.configure s configuration deviceID answers).1) := by
  unfold CaptureEngine.configure
  split
  · exact ⟨I, nofun⟩
  next valid hvalid =>
  obtain rfl := Control.StreamFormats.validated_eq hvalid
  split
  · exact ⟨I, nofun⟩
  next device hchosen =>
  split_ifs
  · exact ⟨I, nofun⟩
  split
  · exact ⟨I, nofun⟩
  next device' hselected =>
  obtain ⟨hid, hformat, habilities, hsettings⟩ := selectFormat_spec hselected
  have hstored : Consistent (s.store device') := I.store (by rwa [habilities, hsettings])
  have hdevice : (s.store device').device device'.uniqueID = some device' :=
    device_store (choose_mem hchosen) hid.symm
  have hmem := mem_of_device hdevice
  obtain ⟨hconsistent, hconnected⟩ := hstored.reconnect ⟨device', hmem⟩ hvalid
  refine ⟨hconsistent, fun hdone => ?_⟩
  obtain ⟨hinputs, houtput, hsel, hconfiguration, hdevices⟩ := hconnected hdone
  refine ⟨hinputs.trans (congrArg Option.toList hsel).symm, houtput, device', ?_, ?_⟩
  · rw [hsel, Option.bind_some, World.device, hdevices]
    exact hdevice
  · rw [hconfiguration]
    exact hformat

/-- What is asked of the device that is selected. -/
theorem Consistent.careful (I : Consistent s) (seconds : Double → τ) (a : Action ι τ) :
    Careful seconds s a := by
  cases a with
  | apply update locks =>
    cases locks with
    | false => trivial
    | true =>
      intro device hdevice
      obtain ⟨id, -, hid⟩ := Option.bind_eq_some_iff.mp hdevice
      exact (allowed_of_apply seconds update (I.sane device (mem_of_device hid).1)).1
  | _ => trivial

theorem Consistent.applyUpdate (I : Consistent s) {seconds : Double → τ} {u : CameraControlUpdate}
    {locks : Bool} : Consistent (CaptureEngine.applyUpdate seconds s u locks) := by
  unfold CaptureEngine.applyUpdate
  split
  · next device hdevice =>
    split_ifs
    · exact I
    · obtain ⟨id, -, hid⟩ := Option.bind_eq_some_iff.mp hdevice
      have hsane := (allowed_of_apply seconds u (I.sane device (mem_of_device hid).1)).2
      let changed := { device with settings := (apply seconds device.abilities u device.settings).1 }
      obtain ⟨hinputs, hselected, hknown, hconfiguration, hsane, hnodup⟩ :=
        @Consistent.store _ _ _ _ s I changed hsane
      exact ⟨hinputs, hselected, hknown, hconfiguration, hsane, hnodup⟩
  · exact I

theorem Consistent.next (I : Consistent s) {seconds : Double → τ} {a : Action ι τ}
    (he : enabled s a) : Consistent (CaptureEngine.next seconds s a) := by
  cases a with
  | configure configuration deviceID answers => exact (I.configure he).1
  | switchCamera deviceID answers => exact (I.configure he).1
  | apply update locks => exact I.applyUpdate
  | start | stop => exact ⟨I.inputs, I.selected, I.known, I.configuration, I.sane, I.nodup⟩
  | adjust devices =>
    obtain ⟨hids, hsane⟩ := adjusted he
    refine ⟨I.inputs, I.selected, fun id hid => ?_, I.configuration, hsane, ?_⟩
    · obtain ⟨device, hdevice, rfl⟩ := I.known id hid
      have hmem : device.uniqueID ∈ devices.map AVCaptureDevice.uniqueID := by
        rw [hids]
        exact List.mem_map_of_mem hdevice
      exact List.mem_map.mp hmem
    · change (devices.map _).Nodup
      rw [hids]
      exact I.nodup

/-- Only `configure` ends the filming. -/
theorem Filming.next (F : Filming s) {seconds : Double → τ} {a : Action ι τ}
    (he : enabled s a) (ha : a.configures = false) : Filming (CaptureEngine.next seconds s a) := by
  obtain ⟨hinputs, houtput, device, hdevice, hformat⟩ := F
  obtain ⟨id, hselected, hfound⟩ := Option.bind_eq_some_iff.mp hdevice
  cases a with
  | configure | switchCamera => cases ha
  | start | stop => exact ⟨hinputs, houtput, device, hdevice, hformat⟩
  | apply update locks =>
    change Filming (CaptureEngine.applyUpdate seconds s update locks)
    unfold CaptureEngine.applyUpdate
    rw [hdevice]
    dsimp only
    split_ifs
    · exact ⟨hinputs, houtput, device, hdevice, hformat⟩
    · obtain ⟨hmem, rfl⟩ := mem_of_device hfound
      let changed := { device with
        settings := (apply seconds device.abilities update device.settings).1 }
      have hstored : (s.store changed).device changed.uniqueID = some changed := device_store hmem rfl
      exact ⟨hinputs, houtput, changed, Option.bind_eq_some_iff.mpr ⟨_, hselected, hstored⟩, hformat⟩
  | adjust devices =>
    obtain ⟨device', hfound', hsame⟩ := find_adjusted he hfound
    exact ⟨hinputs, houtput, device', Option.bind_eq_some_iff.mpr ⟨id, hselected, hfound'⟩,
      by rw [hsame]; exact hformat⟩

end Steps

/-! ### Runs -/

section Runs
variable {ι τ : Type} [LinearOrder τ] {seconds : Double → τ}

/-- Cameras at the start of the app. -/
structure Discovered (devices : List (AVCaptureDevice ι τ)) : Prop where
  sane : ∀ device ∈ devices, Sane device.abilities device.settings
  nodup : (devices.map AVCaptureDevice.uniqueID).Nodup

theorem validated_default1080p : default1080p.validated = .ok default1080p := by
  unfold StreamConfiguration.validated
  rw [if_neg (by decide), if_neg (by decide), if_neg (by decide)]

theorem consistent_start {devices : List (AVCaptureDevice ι τ)} (h : Discovered devices) :
    Consistent ({ devices } : World ι τ) :=
  ⟨List.nil_prefix, rfl, nofun, validated_default1080p, h.sane, h.nodup⟩

variable [DecidableEq ι]

theorem filming_of_legal {s : World ι τ} {as : List (Action ι τ)}
    (h : (engine seconds).Legal (fun _ a => a.configures = false) s as) (F : Filming s) :
    Filming ((engine seconds).exec s as) :=
  h.invariant F fun _ _ F he ha => F.next he ha

/-- **The session films what was asked for**, in every run. -/
theorem filming_of_run (seconds : Double → τ) {devices : List (AVCaptureDevice ι τ)}
    (hdevices : Discovered devices) {as : List (Action ι τ)}
    (h : (engine seconds).Legal (fun _ _ => True) { devices } as) :
    (engine seconds).Legal (Careful seconds) { devices } as ∧
    Consistent ((engine seconds).exec { devices } as) ∧
    ∀ before a after, as = before ++ a :: after →
      a.Succeeds ((engine seconds).exec { devices } before) →
      (∀ b ∈ after, b.configures = false) → Filming ((engine seconds).exec { devices } as) := by
  have hstep : ∀ s a, Consistent s → (engine (ι := ι) seconds).enabled s a → True →
      Consistent ((engine seconds).next s a) := fun _ _ I he _ => I.next he
  have hstart := consistent_start hdevices
  refine ⟨h.along hstart hstep fun s a I _ _ => I.careful seconds a, h.invariant hstart hstep, ?_⟩
  rintro before a after rfl hsucceeds hafter
  obtain ⟨hbefore, henabled, -, hrest⟩ := Machine.legal_append.mp h
  have I := hbefore.invariant hstart hstep
  have hfilming : Filming ((engine seconds).next ((engine seconds).exec { devices } before) a) := by
    cases a with
    | configure configuration deviceID answers => exact (I.configure henabled).2 hsucceeds
    | switchCamera deviceID answers => exact (I.configure henabled).2 hsucceeds
    | _ => exact hsucceeds.elim
  rw [Machine.exec_append]
  have hlegal : (engine seconds).Legal (fun _ a => a.configures = false)
      ((engine seconds).next ((engine seconds).exec { devices } before) a) after :=
    (hrest.and_mem hafter).along (I := fun _ => True) trivial (fun _ _ _ _ _ => trivial)
      fun _ _ _ _ hc => hc.2
  change Filming ((engine seconds).exec ((engine seconds).next _ a) after)
  exact filming_of_legal hlegal hfilming

end Runs

/-- A camera with one format, that is able to do everything. -/
def wideCamera : AVCaptureDevice ℕ ℤ where
  uniqueID := 1
  position := .back
  deviceType := .builtInWideAngleCamera
  formats := [⟨1920, 1080, [⟨1, 60⟩]⟩]
  activeFormat := ⟨640, 480, [⟨1, 30⟩]⟩
  abilities :=
    { minAvailableVideoZoomFactor := one
      maxAvailableVideoZoomFactor := 0x4024000000000000
      isFocusPointOfInterestSupported := true
      isExposurePointOfInterestSupported := true
      isFocusModeSupported _ := true
      isLockingFocusWithCustomLensPositionSupported := true
      isExposureModeSupported _ := true
      minExposureDuration := 1
      maxExposureDuration := 1000
      minISO := 0x42000000
      maxISO := 0x44000000
      minExposureTargetBias := 0xC1000000
      maxExposureTargetBias := 0x41000000
      isWhiteBalanceModeSupported _ := true
      isLockingWhiteBalanceWithCustomDeviceGainsSupported := true
      maxWhiteBalanceGain := 0x40800000
      deviceWhiteBalanceGains _ := ⟨0, one32, 0x41000000⟩
      hasTorch := true
      isTorchAvailable := true
      isVideoStabilizationSupported := true }
  settings :=
    { videoZoomFactor := one
      focusPointOfInterest := (0, 0)
      exposurePointOfInterest := (0, 0)
      focusMode := .continuousAutoFocus
      lensPosition := 0
      exposureMode := .continuousAutoExposure
      exposureDuration := 10
      iso := 0x42C80000
      exposureTargetBias := 0
      whiteBalanceMode := .continuousAutoWhiteBalance
      whiteBalanceGains := ⟨one32, one32, one32⟩
      torchMode := false
      stabilization := true }

theorem sane_wideCamera : Sane wideCamera.abilities wideCamera.settings where
  zoom := by decide
  lens := by decide
  durations := by decide
  duration := by decide
  isos := by decide
  iso := by decide
  bias := by decide
  gain := by decide
  gains _ := ⟨rfl, rfl, rfl⟩

theorem matching_wideCamera : wideCamera.formats.find? (matching default1080p) =
    some ⟨1920, 1080, [⟨1, 60⟩]⟩ := by
  have hsupports : Format.supports ⟨1920, 1080, [⟨1, 60⟩]⟩ 60 = true := by
    simp [Format.supports]
  have hmatching : matching default1080p ⟨1920, 1080, [⟨1, 60⟩]⟩ = true := by
    unfold matching
    rw [show default1080p.framesPerSecond = 60 from rfl, hsupports]
    decide
  exact List.find?_cons_of_pos hmatching

/-- Nothing fails. -/
def willing : Answers ℤ where
  opensInput := true
  locks := true
  canAddInput := true
  canAddPreviousInput := true
  canAddOutput := true
  abilities := wideCamera.abilities
  settings := wideCamera.settings

/-- The camera is set up, and told a zoom out of its range and a temperature that is no number. -/
def filmingRun : List (Action ℕ ℤ) :=
  [.configure default1080p none willing, .start,
    .apply { zoom := some 0x4059000000000000, whiteBalanceKelvin := some 0x7FF8000000000000 } true]

theorem filming_of_run_wideCamera :
    Filming ((engine fun _ => 0).exec { devices := [wideCamera] } filmingRun) := by
  have hlegal : (engine fun _ => 0).Legal (fun _ _ => True) { devices := [wideCamera] } filmingRun :=
    ⟨sane_wideCamera, trivial, trivial, trivial, trivial, trivial, trivial⟩
  have hdiscovered : Discovered [wideCamera] :=
    ⟨List.forall_mem_singleton.mpr sane_wideCamera, by decide⟩
  refine (filming_of_run (fun _ => 0) hdiscovered hlegal).2.2 [] _ _ rfl ?_ (by decide)
  have hselect : selectFormat wideCamera default1080p willing =
      .ok { wideCamera with activeFormat := ⟨1920, 1080, [⟨1, 60⟩]⟩ } := by
    unfold selectFormat
    rw [matching_wideCamera]
    rfl
  have hchoose : choose [wideCamera] none = some wideCamera := rfl
  change (configure { devices := [wideCamera] } default1080p none willing).2 = none
  unfold configure
  rw [validated_default1080p]
  dsimp only
  rw [hchoose]
  dsimp only
  rw [hselect]
  rfl

end RemoteCam.Phone.CaptureEngine
