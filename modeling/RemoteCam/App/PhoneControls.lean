import RemoteCam.App.Status
import RemoteCam.Control.Commands
import RemoteCam.Control.Numbers
import RemoteCam.Lib.Batching
import RemoteCam.Lib.Transitions

/-! # The desktop's controls of the phone

`PhoneController` takes the moves of the window's sliders and switches together while its timer runs,
and hands them to the session as one message. Camera, preview and format are asked for at once.

`coalesced_of_run`: the messages are the moves in consecutive batches, none empty; what the window
shows is where the last moves left it; and the phone hears every message as it was meant.
`askable_of_run`: neither end refuses a format that was asked for.

The methods run on the thread of the window, one at a time. Qt's conversions and comparisons of
doubles are parameters. -/

namespace RemoteCam.App.PhoneControls

open RemoteCam.App.Status (QString text)
open RemoteCam.Backend.Session (State StreamConfig)
open RemoteCam.Cbor.Codec (Bytes Value)
open RemoteCam.Cbor.Limits
open RemoteCam.Control.Builders RemoteCam.Control.Envelope
open RemoteCam.Control.Commands
open RemoteCam.Control.Messages (CameraDescriptor isfinite literal)
open RemoteCam.Control.Numbers
open RemoteCam.Control.StreamFormats
open RemoteCam.Lib.Batching
open RemoteCam.Lib.Ranked
open RemoteCam.Lib.Transitions
open RemoteCam.Video.Annexb (Codec)

/-! ### The controller -/

/-- Its signed value. -/
abbrev HRESULT := ℤ

def SUCCEEDED (result : HRESULT) : Bool := 0 ≤ result

structure Qt where
  qFuzzyCompare : Double → Double → Bool
  toLower : QString → QString
  /-- `toUInt`, which reports whether the whole text is a number that fits. -/
  toUInt : QString → Option UInt32
  fromStdString : Bytes → QString
  hrMessage : HRESULT → QString

/-- What the session has been asked, and its answer. -/
inductive Request where
  | command (command : Command) (result : HRESULT)
  | format (config : StreamConfig) (result : HRESULT)
  deriving DecidableEq, Repr

/-- `0.5` as a double. -/
def half : Double := 0x3FE0000000000000

/-- `5000`. -/
def daylight : Double := 0x40B3880000000000

/-- `10`, `-4`, `4`, `2500` and `9000`. -/
def ten : Double := 0x4024000000000000

def minusFour : Double := 0xC010000000000000

def four : Double := 0x4010000000000000

def tungsten : Double := 0x40A3880000000000

def shade : Double := 0x40C1940000000000

/-- `'x'`. -/
def cross : UInt16 := 0x78

structure PhoneController where
  controlsEnabled : Bool := false
  cameraNames : List QString := []
  cameras : List CameraDescriptor := []
  cameraIndex : ℤ := -1
  codec : QString := text "h264"
  resolution : QString := text "1280x720"
  frameRate : ℤ := 30
  previewEnabled : Bool := true
  phoneZoom : Double := one
  focus : Double := half
  exposureBias : Double := 0
  whiteBalance : Double := daylight
  torch : Bool := false
  stabilization : Bool := false
  pendingControls : CameraControls := {}
  /-- `controlTimer_.isActive()`. -/
  controlTimer : Bool := false
  commandStatus : QString := text "Connect a paired iPhone to enable controls."
  /-- What the session has been asked, and the moves that were taken. Ghosts. -/
  requests : List Request := []
  moves : List CameraControls := []
  deriving DecidableEq, Repr

/-- The fields of `update` that have a value are assigned. -/
def assign (controls update : CameraControls) : CameraControls where
  zoom := update.zoom.or controls.zoom
  focus := update.focus.or controls.focus
  iso := update.iso.or controls.iso
  exposure := update.exposure.or controls.exposure
  ev := update.ev.or controls.ev
  whiteBalance := update.whiteBalance.or controls.whiteBalance
  focusMode := update.focusMode.or controls.focusMode
  exposureMode := update.exposureMode.or controls.exposureMode
  whiteBalanceMode := update.whiteBalanceMode.or controls.whiteBalanceMode
  torch := update.torch.or controls.torch
  stabilization := update.stabilization.or controls.stabilization

namespace PhoneController

variable (qt : Qt) (p : PhoneController)

def report (result : HRESULT) (action : QString) : PhoneController :=
  { p with
    commandStatus :=
      if SUCCEEDED result then action ++ text " sent"
      else action ++ text " failed: " ++ qt.hrMessage result }

/-- The session is asked. -/
def ask (request : Request) : PhoneController := { p with requests := p.requests ++ [request] }

def scheduleControls : PhoneController :=
  if !p.controlTimer then { p with controlTimer := true } else p

/-- The end of every method that moves a control. -/
def move (update : CameraControls) : PhoneController :=
  scheduleControls
    { p with pendingControls := assign p.pendingControls update, moves := p.moves ++ [update] }

/-- What the methods of the sliders share; `shown` is where the slider stands. -/
def slide (shown lo hi value : Double) (moved : Double → PhoneController) : PhoneController :=
  if !isfinite value then p
  else if qt.qFuzzyCompare shown (clamp rank64 value lo hi) then p
  else moved (clamp rank64 value lo hi)

/-- The timer is a single shot. -/
def flushControls (result : HRESULT) : PhoneController :=
  let flushed : PhoneController := { p with controlTimer := false, pendingControls := {} }
  (flushed.ask (.command (.setControl p.pendingControls) result)).report qt result
    (text "Camera controls")

def setPhoneZoom (value : Double) : PhoneController :=
  p.slide qt p.phoneZoom one ten value fun value =>
    move { p with phoneZoom := value } { zoom := some value }

def setFocus (value : Double) : PhoneController :=
  p.slide qt p.focus 0 one value fun value =>
    move { p with focus := value } { focus := some value, focusMode := some (literal "locked") }

def setExposureBias (value : Double) : PhoneController :=
  p.slide qt p.exposureBias minusFour four value fun value =>
    move { p with exposureBias := value } { ev := some value }

def setWhiteBalance (value : Double) : PhoneController :=
  p.slide qt p.whiteBalance tungsten shade value fun value =>
    move { p with whiteBalance := value }
      { whiteBalance := some value, whiteBalanceMode := some (literal "locked") }

def setTorch (enabled : Bool) : PhoneController :=
  if p.torch = enabled then p
  else move { p with torch := enabled } { torch := some enabled }

def setStabilization (enabled : Bool) : PhoneController :=
  if p.stabilization = enabled then p
  else move { p with stabilization := enabled } { stabilization := some enabled }

def setCameraIndex (index : ℤ) (result : HRESULT) : PhoneController :=
  if index < 0 ∨ index ≥ p.cameras.length then p
  else if p.cameraIndex = index then p
  else
    match p.cameras[index.toNat]? with
    | some camera =>
      let chosen : PhoneController := { p with cameraIndex := index }
      (chosen.ask (.command (.setCamera camera.lens (some camera.position)) result)).report qt result
        (text "Camera change")
    | none => p

def setCodec (codec : QString) : PhoneController :=
  let normalized := qt.toLower codec
  if normalized ≠ text "h264" ∧ normalized ≠ text "hevc" then p
  else if p.codec = normalized then p
  else { p with codec := normalized }

def setResolution (resolution : QString) : PhoneController :=
  if p.resolution = resolution then p
  else
    match resolution.splitOn cross with
    | [width, height] =>
      match qt.toUInt width, qt.toUInt height with
      | some width, some height =>
        if width < 320 ∨ height < 240 ∨ width > 3840 ∨ height > 2160 ∨ width &&& 1 ≠ 0 ∨
            height &&& 1 ≠ 0 then p
        else { p with resolution }
      | _, _ => p
    | _ => p

def setFrameRate (frameRate : ℤ) : PhoneController :=
  if frameRate ≠ 30 ∧ frameRate ≠ 60 then p
  else if p.frameRate = frameRate then p
  else { p with frameRate }

def setPreviewEnabled (enabled : Bool) (result : HRESULT) : PhoneController :=
  if p.previewEnabled = enabled then p
  else
    let switched : PhoneController := { p with previewEnabled := enabled }
    (switched.ask (.command (.setPreview enabled) result)).report qt result (text "Phone preview")

/-- The format that `applyFormat` asks for. -/
def chosenFormat : Option StreamConfig :=
  match p.resolution.splitOn cross with
  | [width, height] =>
    let width := ((qt.toUInt width).getD 0).toNat
    let height := ((qt.toUInt height).getD 0).toNat
    let fps := (p.frameRate % 2 ^ 32).toNat
    let pixelsPerSecond := width * height * fps % 2 ^ 64
    some
      { codec := if p.codec = text "hevc" then .hevc else .h264
        width, height, fps
        bitrate := max 1000000 (min (pixelsPerSecond / 7) 35000000) }
  | _ => none

def applyFormat (result : HRESULT) : PhoneController :=
  match p.chosenFormat qt with
  | some config => (p.ask (.format config result)).report qt result (text "Video format")
  | none => p

/-- The two fields of the metrics that are read, and the cameras in the capabilities of the peer. -/
def pollSession (trusted : Bool) (state : State) (caps : Option (List CameraDescriptor)) :
    PhoneController :=
  let nextEnabled := trusted && (state = .ready || state = .streaming)
  let p :=
    if p.controlsEnabled = nextEnabled then p
    else
      { p with
        controlsEnabled := nextEnabled
        commandStatus :=
          if nextEnabled then p.commandStatus
          else text "Connect a paired iPhone to enable controls." }
  match caps with
  | none => p
  | some cameras =>
    let names := cameras.map fun camera => qt.fromStdString camera.name
    if names = p.cameraNames then p
    else
      { p with
        cameraNames := names
        cameras
        cameraIndex := if p.cameraIndex < 0 ∧ cameras ≠ [] then 0 else p.cameraIndex }

end PhoneController

inductive Action where
  | setCameraIndex (index : ℤ) (result : HRESULT)
  | setCodec (codec : QString)
  | setResolution (resolution : QString)
  | setFrameRate (frameRate : ℤ)
  | setPreviewEnabled (enabled : Bool) (result : HRESULT)
  | setPhoneZoom (value : Double)
  | setFocus (value : Double)
  | setExposureBias (value : Double)
  | setWhiteBalance (value : Double)
  | setTorch (enabled : Bool)
  | setStabilization (enabled : Bool)
  | applyFormat (result : HRESULT)
  | pollSession (trusted : Bool) (state : State) (caps : Option (List CameraDescriptor))
  | flushControls (result : HRESULT)
  deriving Repr

def next (qt : Qt) (p : PhoneController) : Action → PhoneController
  | .setCameraIndex index result => p.setCameraIndex qt index result
  | .setCodec codec => p.setCodec qt codec
  | .setResolution resolution => p.setResolution qt resolution
  | .setFrameRate frameRate => p.setFrameRate frameRate
  | .setPreviewEnabled enabled result => p.setPreviewEnabled qt enabled result
  | .setPhoneZoom value => p.setPhoneZoom qt value
  | .setFocus value => p.setFocus qt value
  | .setExposureBias value => p.setExposureBias qt value
  | .setWhiteBalance value => p.setWhiteBalance qt value
  | .setTorch enabled => p.setTorch enabled
  | .setStabilization enabled => p.setStabilization enabled
  | .applyFormat result => p.applyFormat qt result
  | .pollSession trusted state caps => p.pollSession qt trusted state caps
  | .flushControls result => p.flushControls qt result

/-- Only the timer waits for its turn. -/
def Action.Enabled (p : PhoneController) : Action → Prop
  | .flushControls _ => p.controlTimer = true
  | _ => True

def controller (qt : Qt) : Machine PhoneController Action where
  enabled := Action.Enabled
  next := next qt

/-! ### Moves -/

instance : Monoid CameraControls where
  mul := assign
  one := {}
  mul_assoc x y z := by
    change assign (assign x y) z = assign x (assign y z)
    simp only [assign, Option.or_assoc]
  one_mul x := by
    change assign {} x = x
    simp only [assign, Option.or_none]
  mul_one x := rfl

theorem mul_eq (x y : CameraControls) : x * y = assign x y := rfl

/-- Numbers between two bounds. -/
def Bounded (lo hi : Double) (x : Option Double) : Prop :=
  ∀ v ∈ x, isfinite v = true ∧ Within rank64 lo hi v

theorem bounded_none {lo hi : Double} : Bounded lo hi none := by
  rintro _ ⟨⟩

theorem bounded_some {lo hi v : Double} (h : isfinite v = true ∧ Within rank64 lo hi v) :
    Bounded lo hi (some v) := by
  rintro _ ⟨⟩
  exact h

theorem Bounded.or {lo hi : Double} {x y : Option Double} (hx : Bounded lo hi x)
    (hy : Bounded lo hi y) : Bounded lo hi (x.or y) := by
  cases x with
  | none => exact hy
  | some v => exact hx

/-- What the desktop tells the phone: a focus and a white balance always come with their mode. -/
structure Proper (c : CameraControls) : Prop where
  ne : c ≠ 1
  zoom : Bounded one ten c.zoom
  focus : Bounded 0 one c.focus
  ev : Bounded minusFour four c.ev
  whiteBalance : Bounded tungsten shade c.whiteBalance
  focusMode : c.focusMode = c.focus.map fun _ => literal "locked"
  whiteBalanceMode : c.whiteBalanceMode = c.whiteBalance.map fun _ => literal "locked"
  iso : c.iso = none
  exposure : c.exposure = none
  exposureMode : c.exposureMode = none

/-- A batch with a move in it says something. -/
theorem mul_ne_one {x y : CameraControls} (hy : y ≠ 1) : x * y ≠ 1 := by
  intro h
  refine hy ?_
  obtain ⟨a, b, c, d, e, f, g, i, j, k, l⟩ := y
  simp only [mul_eq, assign] at h
  change CameraControls.mk _ _ _ _ _ _ _ _ _ _ _ = CameraControls.mk _ _ _ _ _ _ _ _ _ _ _ at h
  simp only [CameraControls.mk.injEq, Option.or_eq_none_iff] at h
  obtain ⟨⟨rfl, -⟩, ⟨rfl, -⟩, ⟨rfl, -⟩, ⟨rfl, -⟩, ⟨rfl, -⟩, ⟨rfl, -⟩, ⟨rfl, -⟩, ⟨rfl, -⟩, ⟨rfl, -⟩,
    ⟨rfl, -⟩, rfl, -⟩ := h
  rfl

theorem Proper.mul {x y : CameraControls} (hx : Proper x) (hy : Proper y) : Proper (x * y) where
  ne := mul_ne_one hy.ne
  zoom := hy.zoom.or hx.zoom
  focus := hy.focus.or hx.focus
  ev := hy.ev.or hx.ev
  whiteBalance := hy.whiteBalance.or hx.whiteBalance
  focusMode := by
    rw [mul_eq]
    simp only [assign, hx.focusMode, hy.focusMode, Option.map_or]
  whiteBalanceMode := by
    rw [mul_eq]
    simp only [assign, hx.whiteBalanceMode, hy.whiteBalanceMode, Option.map_or]
  iso := Option.or_eq_none_iff.mpr ⟨hy.iso, hx.iso⟩
  exposure := Option.or_eq_none_iff.mpr ⟨hy.exposure, hx.exposure⟩
  exposureMode := Option.or_eq_none_iff.mpr ⟨hy.exposureMode, hx.exposureMode⟩

/-! ### What the window shows -/

structure Shown where
  phoneZoom : Double
  focus : Double
  exposureBias : Double
  whiteBalance : Double
  torch : Bool
  stabilization : Bool
  deriving DecidableEq, Repr

def display (p : PhoneController) : Shown :=
  ⟨p.phoneZoom, p.focus, p.exposureBias, p.whiteBalance, p.torch, p.stabilization⟩

/-- Where a move takes the controls. -/
def Shown.take (s : Shown) (c : CameraControls) : Shown :=
  ⟨c.zoom.getD s.phoneZoom, c.focus.getD s.focus, c.ev.getD s.exposureBias,
    c.whiteBalance.getD s.whiteBalance, c.torch.getD s.torch, c.stabilization.getD s.stabilization⟩

theorem acts_take : Acts Shown.take where
  one s := rfl
  mul s x y := by
    have hgetD {α : Type} (a b : Option α) (d : α) : (b.or a).getD d = b.getD (a.getD d) := by
      cases b <;> rfl
    simp only [mul_eq, assign, Shown.take, hgetD]

/-! ### Requests -/

def Request.controls : Request → Option CameraControls
  | .command (.setControl controls) _ => some controls
  | _ => none

/-- The controls that were sent, in order. -/
def sentControls (requests : List Request) : List CameraControls :=
  requests.filterMap Request.controls

def Request.config : Request → Option StreamConfig
  | .format config _ => some config
  | _ => none

/-- A resolution that the window may show. -/
def Sized (qt : Qt) (resolution : QString) : Prop :=
  ∃ width height w h, resolution.splitOn cross = [width, height] ∧
    qt.toUInt width = some w ∧ qt.toUInt height = some h ∧
    (320 ≤ w.toNat ∧ w.toNat ≤ 3840 ∧ w.toNat % 2 = 0) ∧
    240 ≤ h.toNat ∧ h.toNat ≤ 2160 ∧ h.toNat % 2 = 0

structure Inv (qt : Qt) (p : PhoneController) : Prop where
  batched : Batched p.moves (sentControls p.requests) p.pendingControls
  timer : p.controlTimer = true ↔ p.pendingControls ≠ 1
  display : display p = (display {}).take p.moves.prod
  proper : ∀ c ∈ p.moves, Proper c
  sized : p.resolution = text "1280x720" ∨ Sized qt p.resolution
  frameRate : p.frameRate = 30 ∨ p.frameRate = 60
  codec : p.codec = text "h264" ∨ p.codec = text "hevc"

/-- What a request leaves as it is. -/
def kept (p : PhoneController) :
    List CameraControls × CameraControls × Bool × QString × QString × ℤ :=
  (p.moves, p.pendingControls, p.controlTimer, p.codec, p.resolution, p.frameRate)

section Steps
variable {qt : Qt} {p p' : PhoneController}

theorem Inv.of_kept (h : Inv qt p) (hkept : kept p' = kept p)
    (hdisplay : PhoneControls.display p' = PhoneControls.display p)
    (hsent : sentControls p'.requests = sentControls p.requests) : Inv qt p' := by
  simp only [kept, Prod.mk.injEq] at hkept
  obtain ⟨hmoves, hpending, htimer, hcodec, hresolution, hframeRate⟩ := hkept
  refine ⟨?_, ?_, ?_, ?_, ?_, ?_, ?_⟩
  · rw [hmoves, hsent, hpending]
    exact h.batched
  · rw [htimer, hpending]
    exact h.timer
  · rw [hdisplay, hmoves]
    exact h.display
  · rw [hmoves]
    exact h.proper
  · rw [hresolution]
    exact h.sized
  · rw [hframeRate]
    exact h.frameRate
  · rw [hcodec]
    exact h.codec

/-- A request that is about no control. -/
theorem sentControls_concat {requests : List Request} {request : Request}
    (h : request.controls = none) :
    sentControls (requests ++ [request]) = sentControls requests := by
  unfold sentControls
  rw [List.filterMap_append, List.filterMap_cons_none h]
  exact List.append_nil _

theorem Inv.move (h : Inv qt p) {c : CameraControls} (hc : Proper c) (hkept : kept p' = kept p)
    (hrequests : p'.requests = p.requests)
    (hdisplay : PhoneControls.display p' = (PhoneControls.display p).take c) :
    Inv qt (p'.move c) := by
  simp only [kept, Prod.mk.injEq] at hkept
  obtain ⟨hmoves, hpending, htimer, hcodec, hresolution, hframeRate⟩ := hkept
  have hne : p.pendingControls * c ≠ 1 := mul_ne_one hc.ne
  have hfields : p'.move c = { p' with
      pendingControls := p.pendingControls * c, moves := p.moves ++ [c], controlTimer := true } := by
    unfold PhoneController.move PhoneController.scheduleControls
    rw [mul_eq, ← hpending, ← hmoves]
    cases htimer' : p'.controlTimer
    · rfl
    · simp
  rw [hfields]
  refine ⟨?_, iff_of_true rfl hne, ?_, ?_, ?_, ?_, ?_⟩
  · change Batched (p.moves ++ [c]) (sentControls p'.requests) (p.pendingControls * c)
    rw [hrequests]
    exact h.batched.push c
  · change PhoneControls.display p' = (PhoneControls.display {}).take (p.moves ++ [c]).prod
    rw [hdisplay, h.display, List.prod_append, List.prod_singleton, acts_take.mul]
  · exact List.forall_mem_append.mpr ⟨h.proper, List.forall_mem_singleton.mpr hc⟩
  · exact hresolution ▸ h.sized
  · exact hframeRate ▸ h.frameRate
  · exact hcodec ▸ h.codec

theorem Inv.slide (h : Inv qt p) {shown lo hi value : Double} {moved : Double → PhoneController}
    (hbounds : lessEq rank64 lo hi = true) (hlo : isfinite lo = true) (hhi : isfinite hi = true)
    (hmoved : ∀ v, isfinite v = true ∧ Within rank64 lo hi v → Inv qt (moved v)) :
    Inv qt (p.slide qt shown lo hi value moved) := by
  unfold PhoneController.slide
  split_ifs with hfinite hsame
  · exact h
  · exact h
  · have hvalue : isfinite value = true := by simpa using hfinite
    refine hmoved _ ⟨?_, within_clamp hbounds (rank64_of_isfinite hvalue)⟩
    unfold clamp
    split_ifs
    · exact hlo
    · exact hhi
    · exact hvalue

theorem Inv.flushControls (h : Inv qt p) (htimer : p.controlTimer = true) (result : HRESULT) :
    Inv qt (p.flushControls qt result) where
  batched := by
    have hflush := h.batched.flush (h.timer.mp htimer)
    have hsent : sentControls (p.requests ++ [.command (.setControl p.pendingControls) result]) =
        sentControls p.requests ++ [p.pendingControls] := List.filterMap_append
    change Batched p.moves (sentControls (p.requests ++ [_])) 1
    rw [hsent]
    exact hflush
  timer := iff_of_false Bool.false_ne_true (not_not.mpr rfl)
  display := h.display
  proper := h.proper
  sized := h.sized
  frameRate := h.frameRate
  codec := h.codec

/-- The masks of the source test for even numbers. -/
theorem even_of_and {n : UInt32} (h : n &&& 1 = 0) : n.toNat % 2 = 0 := by
  have hnat := congrArg UInt32.toNat h
  rw [UInt32.toNat_and] at hnat
  exact (Nat.and_one_is_mod _).symm.trans hnat

theorem Inv.setResolution (h : Inv qt p) (resolution : QString) :
    Inv qt (p.setResolution qt resolution) := by
  unfold PhoneController.setResolution
  split_ifs with hsame
  · exact h
  · split
    · next width height hsplit =>
      split
      · next w h' hw hh =>
        split_ifs with hrange
        · exact h
        · simp only [not_or, not_not] at hrange
          obtain ⟨hwlo, hhlo, hwhi, hhhi, hweven, hheven⟩ := hrange
          refine ⟨h.batched, h.timer, h.display, h.proper, ?_, h.frameRate, h.codec⟩
          exact .inr ⟨width, height, w, h', hsplit, hw, hh,
            ⟨Nat.not_lt.mp hwlo, Nat.not_lt.mp hwhi, even_of_and hweven⟩,
            Nat.not_lt.mp hhlo, Nat.not_lt.mp hhhi, even_of_and hheven⟩
      · exact h
    · exact h

theorem Inv.next (h : Inv qt p) {a : Action} (ha : a.Enabled p) :
    Inv qt (PhoneControls.next qt p a) := by
  cases a with
  | setCameraIndex index result =>
    change Inv qt (p.setCameraIndex qt index result)
    unfold PhoneController.setCameraIndex
    split_ifs with hrange hsame
    · exact h
    · exact h
    · split
      · exact h.of_kept rfl rfl (sentControls_concat rfl)
      · exact h
  | setCodec codec =>
    change Inv qt (p.setCodec qt codec)
    unfold PhoneController.setCodec
    dsimp only
    split_ifs with hother hsame
    · exact h
    · exact h
    · refine ⟨h.batched, h.timer, h.display, h.proper, h.sized, h.frameRate, ?_⟩
      change qt.toLower codec = text "h264" ∨ qt.toLower codec = text "hevc"
      rwa [not_and_or, not_not, not_not] at hother
  | setResolution resolution => exact h.setResolution resolution
  | setFrameRate frameRate =>
    change Inv qt (p.setFrameRate frameRate)
    unfold PhoneController.setFrameRate
    split_ifs with hother hsame
    · exact h
    · exact h
    · refine ⟨h.batched, h.timer, h.display, h.proper, h.sized, ?_, h.codec⟩
      change frameRate = 30 ∨ frameRate = 60
      omega
  | setPreviewEnabled enabled result =>
    change Inv qt (p.setPreviewEnabled qt enabled result)
    unfold PhoneController.setPreviewEnabled
    split_ifs with hsame
    · exact h
    · exact h.of_kept rfl rfl (sentControls_concat rfl)
  | setPhoneZoom value =>
    change Inv qt (p.setPhoneZoom qt value)
    unfold PhoneController.setPhoneZoom
    refine h.slide (by decide) (by decide) (by decide) fun v hv => h.move ?_ rfl rfl rfl
    exact ⟨by rintro ⟨⟩, bounded_some hv, bounded_none, bounded_none, bounded_none, rfl, rfl, rfl, rfl,
      rfl⟩
  | setFocus value =>
    change Inv qt (p.setFocus qt value)
    unfold PhoneController.setFocus
    refine h.slide (by decide) (by decide) (by decide) fun v hv => h.move ?_ rfl rfl rfl
    exact ⟨by rintro ⟨⟩, bounded_none, bounded_some hv, bounded_none, bounded_none, rfl, rfl, rfl, rfl,
      rfl⟩
  | setExposureBias value =>
    change Inv qt (p.setExposureBias qt value)
    unfold PhoneController.setExposureBias
    refine h.slide (by decide) (by decide) (by decide) fun v hv => h.move ?_ rfl rfl rfl
    exact ⟨by rintro ⟨⟩, bounded_none, bounded_none, bounded_some hv, bounded_none, rfl, rfl, rfl, rfl,
      rfl⟩
  | setWhiteBalance value =>
    change Inv qt (p.setWhiteBalance qt value)
    unfold PhoneController.setWhiteBalance
    refine h.slide (by decide) (by decide) (by decide) fun v hv => h.move ?_ rfl rfl rfl
    exact ⟨by rintro ⟨⟩, bounded_none, bounded_none, bounded_none, bounded_some hv, rfl, rfl, rfl, rfl,
      rfl⟩
  | setTorch enabled =>
    change Inv qt (p.setTorch enabled)
    unfold PhoneController.setTorch
    split_ifs with hsame
    · exact h
    · refine h.move ?_ rfl rfl rfl
      exact ⟨by rintro ⟨⟩, bounded_none, bounded_none, bounded_none, bounded_none, rfl, rfl, rfl, rfl,
        rfl⟩
  | setStabilization enabled =>
    change Inv qt (p.setStabilization enabled)
    unfold PhoneController.setStabilization
    split_ifs with hsame
    · exact h
    · refine h.move ?_ rfl rfl rfl
      exact ⟨by rintro ⟨⟩, bounded_none, bounded_none, bounded_none, bounded_none, rfl, rfl, rfl, rfl,
        rfl⟩
  | applyFormat result =>
    change Inv qt (p.applyFormat qt result)
    unfold PhoneController.applyFormat
    split
    · exact h.of_kept rfl rfl (sentControls_concat rfl)
    · exact h
  | pollSession trusted state caps =>
    change Inv qt (p.pollSession qt trusted state caps)
    unfold PhoneController.pollSession
    dsimp only
    cases caps with
    | none => dsimp only; split_ifs <;> exact h.of_kept rfl rfl rfl
    | some cameras => dsimp only; split_ifs <;> exact h.of_kept rfl rfl rfl
  | flushControls result => exact h.flushControls ha result

theorem inv_start (qt : Qt) : Inv qt {} where
  batched := batched_nil
  timer := iff_of_false Bool.false_ne_true (not_not.mpr rfl)
  display := rfl
  proper := List.forall_mem_nil _
  sized := .inl rfl
  frameRate := .inl rfl
  codec := .inl rfl

theorem inv_of_run {as : List Action} (h : (controller qt).Legal (fun _ _ => True) {} as) :
    Inv qt ((controller qt).exec {} as) :=
  h.invariant (inv_start qt) fun _ _ hi ha _ => hi.next ha

/-- `toUInt` of the two numbers of the default resolution. -/
structure Reads (qt : Qt) : Prop where
  width : qt.toUInt (text "1280") = some 1280
  height : qt.toUInt (text "720") = some 720

theorem Inv.resolution (h : Inv qt p) (hqt : Reads qt) : Sized qt p.resolution := by
  rcases h.sized with hdefault | hsized
  · rw [hdefault]
    refine ⟨text "1280", text "720", 1280, 720, by decide, hqt.width, hqt.height, ?_, ?_⟩ <;> decide
  · exact hsized

end Steps

/-! ### What the phone hears -/

section Hearing
variable {canon : Bytes → Bytes} {c : CameraControls}

/-- The update that the phone makes of controls that the desktop sent. -/
def told (c : CameraControls) : CameraControlUpdate where
  zoom := c.zoom
  focusMode := c.focus.map fun _ => .locked
  focus := c.focus
  exposureBias := c.ev
  whiteBalanceMode := c.whiteBalance.map fun _ => .locked
  whiteBalanceKelvin := c.whiteBalance
  torchEnabled := c.torch
  stabilizationEnabled := c.stabilization

theorem Bounded.filter {lo hi : Double} {x : Option Double} (h : Bounded lo hi x) :
    x.filter isfinite = x := by
  cases x with
  | none => rfl
  | some v => exact Option.filter_some_pos (h v rfl).1

theorem init_locked (hcanon : ∀ s, Ascii s → canon (literal s) = literal s) :
    Mode.init canon (literal "locked") = some .locked := by
  have hauto : canon (literal "auto") = literal "auto" := hcanon _ (by decide)
  have hlocked : canon (literal "locked") = literal "locked" := hcanon _ (by decide)
  have hne : literal "locked" ≠ literal "auto" := by decide
  unfold Mode.init
  simp [Mode.rawValue, hauto, hlocked, hne]

theorem Proper.update (hcanon : ∀ s, Ascii s → canon (literal s) = literal s) (h : Proper c) :
    c.update canon = told c := by
  have hmode (x : Option Double) :
      (x.map fun _ => literal "locked").bind (Mode.init canon) = x.map fun _ => .locked := by
    cases x with
    | none => rfl
    | some v => exact init_locked hcanon
  unfold CameraControls.update told
  rw [h.zoom.filter, h.focus.filter, h.ev.filter, h.whiteBalance.filter, h.focusMode,
    h.whiteBalanceMode, h.iso, h.exposure, h.exposureMode, hmode, hmode]
  rfl

theorem wellFormed_locked (x : Option Double) :
    ∀ text ∈ (x.map fun _ => literal "locked").toList, Cbor.Utf8.WellFormed text := by
  cases x with
  | none => exact List.forall_mem_nil _
  | some v => exact List.forall_mem_singleton.mpr (wellFormed_literal (by decide))

/-- The bytes of every field that the desktop sends. -/
theorem length_fields_le (h : Proper c) : ∀ entry ∈ controlFields c, ∀ v ∈ entry.2,
    (literal entry.1).length + (Cbor.Codec.encode v).length ≤ 40 := by
  have hdouble {key : String} (hkey : (literal key).length ≤ 20) (x : Option Double) :
      ∀ v ∈ x.map Value.double, (literal key).length + (Cbor.Codec.encode v).length ≤ 40 := by
    intro v hv
    obtain ⟨bits, -, rfl⟩ := Option.map_eq_some_iff.mp hv
    rw [length_double]
    omega
  have hlocked {key : String} (hkey : (literal key).length ≤ 20) (x : Option Double) :
      ∀ v ∈ (x.map fun _ => literal "locked").map Value.text,
        (literal key).length + (Cbor.Codec.encode v).length ≤ 40 := by
    intro v hv
    obtain ⟨mode, hmode, rfl⟩ := Option.map_eq_some_iff.mp hv
    obtain ⟨bits, -, rfl⟩ := Option.map_eq_some_iff.mp hmode
    have hlength := length_text_le (literal "locked")
    have hsix : (literal "locked").length = 6 := rfl
    omega
  have hboolean {key : String} (hkey : (literal key).length ≤ 20) (x : Option Bool) :
      ∀ v ∈ x.map Value.boolean, (literal key).length + (Cbor.Codec.encode v).length ≤ 40 := by
    intro v hv
    obtain ⟨flag, -, rfl⟩ := Option.map_eq_some_iff.mp hv
    have hone : (Cbor.Codec.encode (.boolean flag)).length = 1 := rfl
    omega
  simp only [controlFields, List.forall_mem_cons]
  rw [h.focusMode, h.whiteBalanceMode, h.exposureMode]
  exact ⟨hdouble (by decide) _, hdouble (by decide) _, hdouble (by decide) _,
    hdouble (by decide) _, hdouble (by decide) _, hdouble (by decide) _, hlocked (by decide) _,
    by rintro _ ⟨⟩, hlocked (by decide) _, hboolean (by decide) _, hboolean (by decide) _,
    List.forall_mem_nil _⟩

theorem Proper.valid (h : Proper c) : (Command.setControl c).Valid where
  texts := by
    change ∀ text ∈ c.focusMode.toList ++ c.exposureMode.toList ++ c.whiteBalanceMode.toList, _
    rw [h.focusMode, h.exposureMode, h.whiteBalanceMode]
    exact List.forall_mem_append.mpr ⟨List.forall_mem_append.mpr
      ⟨wellFormed_locked _, List.forall_mem_nil _⟩, wellFormed_locked _⟩
  fits := by
    have hcount : (present (controlFields c)).length ≤ 11 := List.length_filterMap_le _ _
    have hentry : ∀ entry ∈ present (controlFields c),
        (literal entry.1).length + (Cbor.Codec.encode entry.2).length ≤ 40 :=
      fun entry hentry => length_fields_le h _ (mem_present hentry) entry.2 rfl
    have hsize := @length_makeMessage_le (present (controlFields c)) "set_control" 40 (by decide)
      hentry
    have hmax : Control.Messages.kMaxPayloadBytes = 1048576 := rfl
    change (Message.encode (makeMessage "set_control" (present (controlFields c)))).length ≤ _
    omega

theorem Proper.hears (hcanon : ∀ s, Ascii s → canon (literal s) = literal s) (h : Proper c) :
    Hears canon (Control.Commands.setControl c) fun message =>
      handle canon message = some (.setControl (told c)) := by
  refine (command_crosses hcanon (.setControl c) h.valid).imp fun message hmessage => ?_
  rw [hmessage, Command.order, h.update hcanon]

end Hearing

/-- **Coalescing loses nothing**, in every run of the controller. The controls that were sent are the
moves in consecutive batches, none of them empty, and the timer runs as long as some are left; the
window shows where the last moves left it; and the phone hears every message, however the connection
cuts its bytes, with all of its numbers and modes. -/
theorem coalesced_of_run (qt : Qt) {canon : Bytes → Bytes}
    (hcanon : ∀ s, Ascii s → canon (literal s) = literal s) {as : List Action}
    (h : (controller qt).Legal (fun _ _ => True) {} as) :
    Batched ((controller qt).exec {} as).moves (sentControls ((controller qt).exec {} as).requests)
      ((controller qt).exec {} as).pendingControls ∧
    (((controller qt).exec {} as).controlTimer = true ↔
      ((controller qt).exec {} as).pendingControls ≠ {}) ∧
    display ((controller qt).exec {} as) =
      (display {}).take ((controller qt).exec {} as).moves.prod ∧
    ∀ c ∈ sentControls ((controller qt).exec {} as).requests, Proper c ∧
      Hears canon (Control.Commands.setControl c) fun message =>
        handle canon message = some (.setControl (told c)) := by
  have hinv := inv_of_run h
  refine ⟨hinv.batched, hinv.timer, hinv.display, fun c hc => ?_⟩
  have hproper := hinv.batched.forall_sent (fun _ _ => Proper.mul) hinv.proper c hc
  exact ⟨hproper, hproper.hears hcanon⟩

/-- Qt on seven-bit text, for doubles that are equal or far apart. -/
def seven : Qt where
  qFuzzyCompare x y := x = y
  toLower s := s.map fun c => if 0x41 ≤ c ∧ c ≤ 0x5A then c + 0x20 else c
  toUInt s :=
    let value := s.foldl (fun n c => 10 * n + (c.toNat - 0x30)) 0
    if s ≠ [] ∧ (s.all fun c => 0x30 ≤ c ∧ c ≤ 0x39) ∧ value < 2 ^ 32 then some (.ofNat value)
    else none
  fromStdString s := s.map UInt8.toUInt16
  hrMessage _ := []

/-- The zoom goes to `2`, past the end and back to `4`, with the focus moved in between. -/
def dragged : List Action :=
  [.setPhoneZoom 0x4000000000000000, .setFocus 0x3FD0000000000000, .setPhoneZoom 0x7FEFFFFFFFFFFFFF,
    .setPhoneZoom four, .setPhoneZoom 0x7FF0000000000000, .flushControls 0, .setTorch true]

theorem coalesced_of_run_dragged :
    sentControls ((controller seven).exec {} dragged).requests =
      [{ zoom := some four, focus := some 0x3FD0000000000000,
         focusMode := some (literal "locked") }] ∧
    Hears id (Control.Commands.setControl
      { zoom := some four, focus := some 0x3FD0000000000000, focusMode := some (literal "locked") })
      fun message => handle id message = some (.setControl
        { zoom := some four, focus := some 0x3FD0000000000000, focusMode := some .locked }) := by
  have htimer : ((controller seven).exec {} (dragged.take 5)).controlTimer = true := by
    decide +kernel
  have hlegal : (controller seven).Legal (fun _ _ => True) {} dragged :=
    ⟨trivial, trivial, trivial, trivial, trivial, trivial, trivial, trivial, trivial, trivial,
      htimer, trivial, trivial, trivial, trivial⟩
  have hsent : sentControls ((controller seven).exec {} dragged).requests =
      [{ zoom := some four, focus := some 0x3FD0000000000000,
         focusMode := some (literal "locked") }] := by decide +kernel
  obtain ⟨-, -, -, hheard⟩ := @coalesced_of_run seven id (fun _ _ => rfl) _ hlegal
  rw [hsent] at hheard
  exact ⟨hsent, (List.forall_mem_singleton.mp hheard).2⟩

/-- **What is asked for is what the window shows, and nobody refuses it**: the codec, the size and the
rate, with a bit for every seven pixels within the bounds. The phone reads the same numbers back and
finds them valid. -/
theorem askable_of_run {qt : Qt} (hqt : Reads qt) {canon : Bytes → Bytes}
    (hcanon : ∀ s, Ascii s → canon (literal s) = literal s) {as : List Action}
    (h : (controller qt).Legal (fun _ _ => True) {} as) (result : HRESULT) :
    ∃ config width height,
      (next qt ((controller qt).exec {} as) (.applyFormat result)).requests =
        ((controller qt).exec {} as).requests ++ [.format config result] ∧
      ((controller qt).exec {} as).codec = text (codecName config.codec) ∧
      ((controller qt).exec {} as).resolution.splitOn cross = [width, height] ∧
      qt.toUInt width = some (.ofNat config.width) ∧ qt.toUInt height = some (.ofNat config.height) ∧
      ((controller qt).exec {} as).frameRate = config.fps ∧
      config.bitrate =
        max 1000000 (min (config.width * config.height * config.fps / 7) 35000000) ∧
      config.valid = true ∧
      ∀ generation : UInt64, Hears canon (setFormat config generation) fun message =>
        message.type = literal "set_format" ∧
          configuration canon message.fields = some (streamConfiguration config) ∧
          formatGeneration canon message.fields = some generation := by
  have hinv := inv_of_run h
  generalize (controller qt).exec {} as = p at hinv ⊢
  obtain ⟨width, height, w, h, hsplit, hw, hh, ⟨hwlo, hwhi, hweven⟩, hhlo, hhhi, hheven⟩ :=
    hinv.resolution hqt
  have hfps : ((p.frameRate % 2 ^ 32).toNat : ℤ) = p.frameRate ∧
      30 ≤ (p.frameRate % 2 ^ 32).toNat ∧ (p.frameRate % 2 ^ 32).toNat ≤ 60 := by
    rcases hinv.frameRate with hrate | hrate <;> rw [hrate] <;> decide
  set fps := (p.frameRate % 2 ^ 32).toNat with hfpsDef
  have hpixels : w.toNat * h.toNat * fps ≤ 3840 * 2160 * 60 :=
    Nat.mul_le_mul (Nat.mul_le_mul hwhi hhhi) hfps.2.2
  have hchosen : p.chosenFormat qt = some
      { codec := if p.codec = text "hevc" then .hevc else .h264
        width := w.toNat, height := h.toNat, fps
        bitrate := max 1000000 (min (w.toNat * h.toNat * fps / 7) 35000000) } := by
    unfold PhoneController.chosenFormat
    rw [hsplit]
    dsimp only
    rw [hw, hh, Option.getD_some, Option.getD_some, ← hfpsDef,
      Nat.mod_eq_of_lt (hpixels.trans_lt (by decide))]
  have hsize : 0 < w.toNat ∧ 0 < h.toNat ∧ w.toNat ≤ 4096 ∧ h.toNat ≤ 4096 ∧ w.toNat % 2 = 0 ∧
      h.toNat % 2 = 0 ∧ w.toNat * h.toNat ≤ 3840 * 2160 :=
    ⟨by omega, by omega, by omega, by omega, hweven, hheven, Nat.mul_le_mul hwhi hhhi⟩
  have hbitrate : 64000 ≤ max 1000000 (min (w.toNat * h.toNat * fps / 7) 35000000) ∧
      max 1000000 (min (w.toNat * h.toNat * fps / 7) 35000000) ≤ 100000000 := by omega
  have hrate : 1 ≤ fps ∧ fps ≤ 120 := by omega
  have hvalid : StreamConfig.valid
      { codec := if p.codec = text "hevc" then .hevc else .h264
        width := w.toNat, height := h.toNat, fps
        bitrate := max 1000000 (min (w.toNat * h.toNat * fps / 7) 35000000) } = true :=
    (valid_iff _).mpr ⟨hsize, hrate, hbitrate⟩
  refine ⟨_, width, height, ?_, ?_, hsplit, ?_, ?_, hfps.1.symm, rfl, hvalid,
    ((configuration_crosses hcanon _).2 hvalid).2⟩
  · change (p.applyFormat qt result).requests = _
    unfold PhoneController.applyFormat
    rw [hchosen]
    rfl
  · rcases hinv.codec with hcodec | hcodec <;> rw [hcodec]
    · rw [if_neg (by decide)]
      rfl
    · rw [if_pos rfl]
      rfl
  · rw [hw, UInt32.ofNat_toNat]
  · rw [hh, UInt32.ofNat_toNat]

/-- The window chooses HEVC at 4K, and an odd size that is not taken. -/
def chosen : List Action :=
  [.setCodec (text "HEVC"), .setResolution (text "3840x2160"), .setFrameRate 60,
    .setResolution (text "1921x1080")]

theorem askable_of_run_chosen : ∃ config width height,
    (next seven ((controller seven).exec {} chosen) (.applyFormat 0)).requests =
      ((controller seven).exec {} chosen).requests ++ [.format config 0] ∧
    [text "3840", text "2160"] = [width, height] ∧
    seven.toUInt width = some (.ofNat config.width) ∧
    seven.toUInt height = some (.ofNat config.height) ∧ config.valid = true := by
  have hlegal : (controller seven).Legal (fun _ _ => True) {} chosen :=
    ⟨trivial, trivial, trivial, trivial, trivial, trivial, trivial, trivial, trivial⟩
  obtain ⟨config, width, height, hrequests, -, hsplit, hwidth, hheight, -, -, hvalid, -⟩ :=
    @askable_of_run seven ⟨by decide, by decide⟩ id (fun _ _ => rfl) _ hlegal 0
  exact ⟨config, width, height, hrequests, hsplit, hwidth, hheight, hvalid⟩

end RemoteCam.App.PhoneControls
