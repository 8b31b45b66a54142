import Mathlib.Order.Lattice
import RemoteCam.Control.Commands
import RemoteCam.Control.Numbers

/-! # The controls of the camera

`apply` turns an update into calls of the device, one control after the other. A call that the
device is not able to take, or whose value is out of its range, ends the app.

`allowed_of_apply`: of whatever numbers and modes an update is made, infinities and values that are
not numbers among them, the device is asked for nothing that it does not allow.

The time of the framework is any linear order. -/

namespace RemoteCam.Phone.Camera

open RemoteCam.Lib.Ranked
open RemoteCam.Control.Messages (isfinite)
open RemoteCam.Control.Numbers
open RemoteCam.Control.Commands (Mode CameraControlUpdate)

/-! ### Devices -/

/-- `AVCaptureDevice.FocusMode`. -/
inductive FocusMode where
  | locked
  | autoFocus
  | continuousAutoFocus
  deriving DecidableEq, Repr

/-- `AVCaptureDevice.ExposureMode`. -/
inductive ExposureMode where
  | locked
  | autoExpose
  | continuousAutoExposure
  | custom
  deriving DecidableEq, Repr

/-- `AVCaptureDevice.WhiteBalanceMode`. -/
inductive WhiteBalanceMode where
  | locked
  | autoWhiteBalance
  | continuousAutoWhiteBalance
  deriving DecidableEq, Repr

structure WhiteBalanceGains where
  redGain : Single
  greenGain : Single
  blueGain : Single
  deriving DecidableEq, Repr

/-- What a device is able to do, in its active format and on its connection. -/
structure Abilities (τ : Type) where
  minAvailableVideoZoomFactor : Double
  maxAvailableVideoZoomFactor : Double
  isFocusPointOfInterestSupported : Bool
  isExposurePointOfInterestSupported : Bool
  isFocusModeSupported : FocusMode → Bool
  isLockingFocusWithCustomLensPositionSupported : Bool
  isExposureModeSupported : ExposureMode → Bool
  minExposureDuration : τ
  maxExposureDuration : τ
  minISO : Single
  maxISO : Single
  minExposureTargetBias : Single
  maxExposureTargetBias : Single
  isWhiteBalanceModeSupported : WhiteBalanceMode → Bool
  isLockingWhiteBalanceWithCustomDeviceGainsSupported : Bool
  maxWhiteBalanceGain : Single
  /-- For a temperature, without tint. -/
  deviceWhiteBalanceGains : Single → WhiteBalanceGains
  hasTorch : Bool
  isTorchAvailable : Bool
  isVideoStabilizationSupported : Bool

structure Settings (τ : Type) where
  videoZoomFactor : Double
  focusPointOfInterest : Double × Double
  exposurePointOfInterest : Double × Double
  focusMode : FocusMode
  lensPosition : Single
  exposureMode : ExposureMode
  exposureDuration : τ
  iso : Single
  exposureTargetBias : Single
  whiteBalanceMode : WhiteBalanceMode
  whiteBalanceGains : WhiteBalanceGains
  torchMode : Bool
  /-- `preferredVideoStabilizationMode` of the connection is not `off`. -/
  stabilization : Bool
  deriving DecidableEq, Repr

/-- A call of the device, or of the connection. -/
inductive Call (τ : Type) where
  | videoZoomFactor (factor : Double)
  | focusPointOfInterest (x y : Double)
  | exposurePointOfInterest (x y : Double)
  | focusMode (mode : FocusMode)
  | setFocusModeLocked (lensPosition : Single)
  | exposureMode (mode : ExposureMode)
  | setExposureModeCustom (duration : τ) (iso : Single)
  | setExposureTargetBias (bias : Single)
  | whiteBalanceMode (mode : WhiteBalanceMode)
  | setWhiteBalanceModeLocked (gains : WhiteBalanceGains)
  | torchMode (on : Bool)
  | preferredVideoStabilizationMode (auto : Bool)
  deriving DecidableEq, Repr

section Devices
variable {τ : Type} [LinearOrder τ]

def Call.perform (d : Settings τ) : Call τ → Settings τ
  | .videoZoomFactor factor => { d with videoZoomFactor := factor }
  | .focusPointOfInterest x y => { d with focusPointOfInterest := (x, y) }
  | .exposurePointOfInterest x y => { d with exposurePointOfInterest := (x, y) }
  | .focusMode mode => { d with focusMode := mode }
  | .setFocusModeLocked lensPosition => { d with focusMode := .locked, lensPosition }
  | .exposureMode mode => { d with exposureMode := mode }
  | .setExposureModeCustom duration iso =>
    { d with exposureMode := .custom, exposureDuration := duration, iso }
  | .setExposureTargetBias bias => { d with exposureTargetBias := bias }
  | .whiteBalanceMode mode => { d with whiteBalanceMode := mode }
  | .setWhiteBalanceModeLocked gains =>
    { d with whiteBalanceMode := .locked, whiteBalanceGains := gains }
  | .torchMode on => { d with torchMode := on }
  | .preferredVideoStabilizationMode auto => { d with stabilization := auto }

def WhiteBalanceGains.Bounded (g : WhiteBalanceGains) (maximum : Single) : Prop :=
  Within rank32 one32 maximum g.redGain ∧ Within rank32 one32 maximum g.greenGain ∧
    Within rank32 one32 maximum g.blueGain

/-- What the framework takes without ending the app. -/
def Call.Allowed (a : Abilities τ) : Call τ → Prop
  | .videoZoomFactor factor =>
    Within rank64 a.minAvailableVideoZoomFactor a.maxAvailableVideoZoomFactor factor
  | .focusPointOfInterest x y =>
    a.isFocusPointOfInterestSupported = true ∧ Within rank64 0 one x ∧ Within rank64 0 one y
  | .exposurePointOfInterest x y =>
    a.isExposurePointOfInterestSupported = true ∧ Within rank64 0 one x ∧ Within rank64 0 one y
  | .focusMode mode => a.isFocusModeSupported mode = true
  | .setFocusModeLocked lensPosition =>
    a.isLockingFocusWithCustomLensPositionSupported = true ∧ Within rank32 0 one32 lensPosition
  | .exposureMode mode => a.isExposureModeSupported mode = true
  | .setExposureModeCustom duration iso =>
    a.isExposureModeSupported .custom = true ∧
      (a.minExposureDuration ≤ duration ∧ duration ≤ a.maxExposureDuration) ∧
      Within rank32 a.minISO a.maxISO iso
  | .setExposureTargetBias bias => Within rank32 a.minExposureTargetBias a.maxExposureTargetBias bias
  | .whiteBalanceMode mode => a.isWhiteBalanceModeSupported mode = true
  | .setWhiteBalanceModeLocked gains =>
    a.isLockingWhiteBalanceWithCustomDeviceGainsSupported = true ∧ gains.Bounded a.maxWhiteBalanceGain
  | .torchMode _ => a.hasTorch = true ∧ a.isTorchAvailable = true
  | .preferredVideoStabilizationMode _ => a.isVideoStabilizationSupported = true

/-- What the framework promises of a device: its ranges are not empty, and where it stands is within
them. -/
structure Sane (a : Abilities τ) (d : Settings τ) : Prop where
  zoom : lessEq rank64 a.minAvailableVideoZoomFactor a.maxAvailableVideoZoomFactor = true
  lens : (rank32 d.lensPosition).isSome = true
  durations : a.minExposureDuration ≤ a.maxExposureDuration
  duration : a.minExposureDuration ≤ d.exposureDuration ∧ d.exposureDuration ≤ a.maxExposureDuration
  isos : lessEq rank32 a.minISO a.maxISO = true
  iso : Within rank32 a.minISO a.maxISO d.iso
  bias : lessEq rank32 a.minExposureTargetBias a.maxExposureTargetBias = true
  gain : lessEq rank32 one32 a.maxWhiteBalanceGain = true
  gains : ∀ temperature, (rank32 (a.deviceWhiteBalanceGains temperature).redGain).isSome = true ∧
    (rank32 (a.deviceWhiteBalanceGains temperature).greenGain).isSome = true ∧
    (rank32 (a.deviceWhiteBalanceGains temperature).blueGain).isSome = true

/-! ### The update -/

variable (seconds : Double → τ) (a : Abilities τ) (u : CameraControlUpdate) (d : Settings τ)

def zoomCalls : List (Call τ) :=
  match u.zoom.filter isfinite with
  | some zoom =>
    [.videoZoomFactor
      (limited rank64 zoom a.minAvailableVideoZoomFactor a.maxAvailableVideoZoomFactor)]
  | none => []

/-- The point of a touch, if it has one. -/
def point : Option (Double × Double) := do
  let x ← u.focusPointX
  let y ← u.focusPointY
  if isfinite x && isfinite y then some (limited rank64 x 0 one, limited rank64 y 0 one) else none

def pointCalls : List (Call τ) :=
  match point u with
  | some (x, y) =>
    (if a.isFocusPointOfInterestSupported then [.focusPointOfInterest x y] else []) ++
    (if a.isExposurePointOfInterestSupported then [.exposurePointOfInterest x y] else []) ++
    (if a.isFocusModeSupported .autoFocus then [.focusMode .autoFocus] else []) ++
    if a.isExposureModeSupported .autoExpose then [.exposureMode .autoExpose] else []
  | none => []

def focusCalls : List (Call τ) :=
  match u.focusMode with
  | some .auto =>
    if a.isFocusModeSupported .continuousAutoFocus then [.focusMode .continuousAutoFocus] else []
  | some .locked => if a.isFocusModeSupported .locked then [.focusMode .locked] else []
  | some .manual =>
    if a.isLockingFocusWithCustomLensPositionSupported then
      let requested := (u.focus.filter isfinite).getD (toDouble d.lensPosition)
      [.setFocusModeLocked (toFloat (limited rank64 requested 0 one))]
    else []
  | none =>
    match u.focus.filter isfinite with
    | some focus =>
      if a.isLockingFocusWithCustomLensPositionSupported then
        [.setFocusModeLocked (toFloat (limited rank64 focus 0 one))]
      else []
    | none => []

def clampedDuration : τ :=
  match u.exposureSeconds.filter fun x => isfinite x && less rank64 0 x with
  | some x => max a.minExposureDuration (min (seconds x) a.maxExposureDuration)
  | none => d.exposureDuration

def clampedISO : Single :=
  match u.iso.filter isfinite with
  | some iso => limited rank32 (toFloat iso) a.minISO a.maxISO
  | none => d.iso

def exposureCalls : List (Call τ) :=
  let custom :=
    if a.isExposureModeSupported .custom then
      [.setExposureModeCustom (clampedDuration seconds a u d) (clampedISO a u d)]
    else []
  match u.exposureMode with
  | some .auto =>
    if a.isExposureModeSupported .continuousAutoExposure then
      [.exposureMode .continuousAutoExposure]
    else []
  | some .locked => if a.isExposureModeSupported .locked then [.exposureMode .locked] else []
  | some .manual => custom
  | none => if u.iso.isSome || u.exposureSeconds.isSome then custom else []

def biasCalls : List (Call τ) :=
  match u.exposureBias.filter isfinite with
  | some bias =>
    [.setExposureTargetBias
      (limited rank32 (toFloat bias) a.minExposureTargetBias a.maxExposureTargetBias)]
  | none => []

/-- `5000`, `2000` and `10000` as doubles. -/
def neutral : Double := 0x40B3880000000000

def coldest : Double := 0x409F400000000000

def warmest : Double := 0x40C3880000000000

def whiteBalanceGains (kelvin : Double) : WhiteBalanceGains :=
  let kelvin := if isfinite kelvin then kelvin else neutral
  let gains := a.deviceWhiteBalanceGains (toFloat (limited rank64 kelvin coldest warmest))
  { redGain := limited rank32 gains.redGain one32 a.maxWhiteBalanceGain
    greenGain := limited rank32 gains.greenGain one32 a.maxWhiteBalanceGain
    blueGain := limited rank32 gains.blueGain one32 a.maxWhiteBalanceGain }

def whiteBalanceCalls : List (Call τ) :=
  let locking (kelvin : Double) : List (Call τ) :=
    if a.isLockingWhiteBalanceWithCustomDeviceGainsSupported then
      [.setWhiteBalanceModeLocked (whiteBalanceGains a kelvin)]
    else []
  match u.whiteBalanceMode with
  | some .auto =>
    if a.isWhiteBalanceModeSupported .continuousAutoWhiteBalance then
      [.whiteBalanceMode .continuousAutoWhiteBalance]
    else []
  | some .locked =>
    if a.isWhiteBalanceModeSupported .locked then [.whiteBalanceMode .locked] else []
  | some .manual => locking (u.whiteBalanceKelvin.getD neutral)
  | none =>
    match u.whiteBalanceKelvin with
    | some kelvin => locking kelvin
    | none => []

def torchCalls : List (Call τ) :=
  match u.torchEnabled with
  | some torchEnabled => if a.hasTorch && a.isTorchAvailable then [.torchMode torchEnabled] else []
  | none => []

def stabilizationCalls : List (Call τ) :=
  match u.stabilizationEnabled with
  | some enabled =>
    if a.isVideoStabilizationSupported then [.preferredVideoStabilizationMode enabled] else []
  | none => []

/-- The calls are made in this order; each reads what those before it left. -/
def stages : List (Settings τ → List (Call τ)) :=
  [fun _ => zoomCalls a u, fun _ => pointCalls a u, focusCalls a u, exposureCalls seconds a u,
    fun _ => biasCalls a u, fun _ => whiteBalanceCalls a u, fun _ => torchCalls a u,
    fun _ => stabilizationCalls a u]

/-- The device after some calls, and the calls. -/
def perform (calls : List (Call τ)) (done : Settings τ × List (Call τ)) :
    Settings τ × List (Call τ) :=
  (calls.foldl Call.perform done.1, done.2 ++ calls)

/-- `apply`, of a selected device that is locked for configuration. -/
def apply : Settings τ × List (Call τ) :=
  (stages seconds a u).foldl (fun done stage => perform (stage done.1) done) (d, [])

end Devices

/-! ### What is asked for -/

section Allowed
variable {τ : Type} [LinearOrder τ] {seconds : Double → τ} {a : Abilities τ}
  {u : CameraControlUpdate} {d : Settings τ}

theorem forall_mem_ite {α : Type} {P : α → Prop} {b : Bool} {l : List α}
    (h : b = true → ∀ x ∈ l, P x) : ∀ x ∈ (if b then l else []), P x := by
  cases b
  · exact List.forall_mem_nil P
  · exact h rfl

theorem finite_of_mem {x : Option Double} {v : Double} (h : x.filter isfinite = some v) :
    (rank64 v).isSome = true :=
  rank64_of_isfinite (Option.filter_eq_some_iff.mp h).2

theorem within_unit {x : Double} (h : (rank64 x).isSome = true) :
    Within rank64 0 one (limited rank64 x 0 one) := within_limited (by decide) h

theorem allowed_zoomCalls (h : Sane a d) : ∀ c ∈ zoomCalls a u, @Call.Allowed τ _ a c := by
  unfold zoomCalls
  split
  · next hzoom => exact List.forall_mem_singleton.mpr (within_limited h.zoom (finite_of_mem hzoom))
  · exact List.forall_mem_nil _

theorem within_point {x y : Double} (h : point u = some (x, y)) :
    Within rank64 0 one x ∧ Within rank64 0 one y := by
  unfold point at h
  obtain ⟨x', -, h⟩ := Option.bind_eq_some_iff.mp h
  obtain ⟨y', -, h⟩ := Option.bind_eq_some_iff.mp h
  split_ifs at h with hfinite
  rw [Bool.and_eq_true] at hfinite
  obtain ⟨rfl, rfl⟩ := Prod.mk.inj (Option.some.inj h)
  exact ⟨within_unit (rank64_of_isfinite hfinite.1), within_unit (rank64_of_isfinite hfinite.2)⟩

theorem allowed_pointCalls : ∀ c ∈ pointCalls a u, @Call.Allowed τ _ a c := by
  unfold pointCalls
  split
  · next x y hpoint =>
    have hwithin := within_point hpoint
    simp only [List.forall_mem_append]
    exact ⟨⟨⟨forall_mem_ite fun hs => List.forall_mem_singleton.mpr ⟨hs, hwithin⟩,
      forall_mem_ite fun hs => List.forall_mem_singleton.mpr ⟨hs, hwithin⟩⟩,
      forall_mem_ite fun hs => List.forall_mem_singleton.mpr hs⟩,
      forall_mem_ite fun hs => List.forall_mem_singleton.mpr hs⟩
  · exact List.forall_mem_nil _

theorem allowed_focusCalls (h : Sane a d) : ∀ c ∈ focusCalls a u d, Call.Allowed a c := by
  unfold focusCalls
  split
  · exact forall_mem_ite fun hs => List.forall_mem_singleton.mpr hs
  · exact forall_mem_ite fun hs => List.forall_mem_singleton.mpr hs
  · refine forall_mem_ite fun hs => List.forall_mem_singleton.mpr ⟨hs, ?_⟩
    refine within_toFloat (within_unit ?_)
    cases hfocus : u.focus.filter isfinite with
    | none => exact rank64_toDouble h.lens
    | some focus => exact finite_of_mem hfocus
  · split
    · next hfocus =>
      exact forall_mem_ite fun hs => List.forall_mem_singleton.mpr
        ⟨hs, within_toFloat (within_unit (finite_of_mem hfocus))⟩
    · exact List.forall_mem_nil _

theorem within_clampedDuration (h : Sane a d) :
    a.minExposureDuration ≤ clampedDuration seconds a u d ∧
      clampedDuration seconds a u d ≤ a.maxExposureDuration := by
  unfold clampedDuration
  split
  · exact ⟨le_max_left _ _, max_le h.durations (min_le_right _ _)⟩
  · exact h.duration

theorem within_clampedISO (h : Sane a d) : Within rank32 a.minISO a.maxISO (clampedISO a u d) := by
  unfold clampedISO
  split
  · next hiso =>
    refine within_limited h.isos ?_
    rw [rank32_toFloat (finite_of_mem hiso)]
    rfl
  · exact h.iso

theorem allowed_exposureCalls (h : Sane a d) :
    ∀ c ∈ exposureCalls seconds a u d, Call.Allowed a c := by
  have hcustom : ∀ c ∈ (if a.isExposureModeSupported .custom then
      [Call.setExposureModeCustom (clampedDuration seconds a u d) (clampedISO a u d)] else []),
      Call.Allowed a c :=
    forall_mem_ite fun hs => List.forall_mem_singleton.mpr
      ⟨hs, within_clampedDuration h, within_clampedISO h⟩
  unfold exposureCalls
  dsimp only
  split
  · exact forall_mem_ite fun hs => List.forall_mem_singleton.mpr hs
  · exact forall_mem_ite fun hs => List.forall_mem_singleton.mpr hs
  · exact hcustom
  · exact forall_mem_ite fun _ => hcustom

theorem allowed_biasCalls (h : Sane a d) : ∀ c ∈ biasCalls a u, @Call.Allowed τ _ a c := by
  unfold biasCalls
  split
  · next hbias =>
    refine List.forall_mem_singleton.mpr (within_limited h.bias ?_)
    rw [rank32_toFloat (finite_of_mem hbias)]
    rfl
  · exact List.forall_mem_nil _

theorem bounded_whiteBalanceGains (h : Sane a d) (kelvin : Double) :
    (whiteBalanceGains a kelvin).Bounded a.maxWhiteBalanceGain := by
  obtain ⟨hred, hgreen, hblue⟩ := h.gains <|
    toFloat (limited rank64 (if isfinite kelvin then kelvin else neutral) coldest warmest)
  exact ⟨within_limited h.gain hred, within_limited h.gain hgreen, within_limited h.gain hblue⟩

theorem allowed_whiteBalanceCalls (h : Sane a d) :
    ∀ c ∈ whiteBalanceCalls a u, @Call.Allowed τ _ a c := by
  have hlocking (kelvin : Double) :
      ∀ c ∈ (if a.isLockingWhiteBalanceWithCustomDeviceGainsSupported then
        [Call.setWhiteBalanceModeLocked (whiteBalanceGains a kelvin)] else []),
        @Call.Allowed τ _ a c :=
    forall_mem_ite fun hs => List.forall_mem_singleton.mpr ⟨hs, bounded_whiteBalanceGains h kelvin⟩
  unfold whiteBalanceCalls
  dsimp only
  split
  · exact forall_mem_ite fun hs => List.forall_mem_singleton.mpr hs
  · exact forall_mem_ite fun hs => List.forall_mem_singleton.mpr hs
  · exact hlocking _
  · split
    · exact hlocking _
    · exact List.forall_mem_nil _

theorem allowed_torchCalls : ∀ c ∈ torchCalls a u, @Call.Allowed τ _ a c := by
  unfold torchCalls
  split
  · exact forall_mem_ite fun hs => List.forall_mem_singleton.mpr ((Bool.and_eq_true _ _).mp hs)
  · exact List.forall_mem_nil _

theorem allowed_stabilizationCalls : ∀ c ∈ stabilizationCalls a u, @Call.Allowed τ _ a c := by
  unfold stabilizationCalls
  split
  · exact forall_mem_ite fun hs => List.forall_mem_singleton.mpr hs
  · exact List.forall_mem_nil _

/-- A device that takes what it allows stays within its ranges. -/
theorem Sane.perform (h : Sane a d) {c : Call τ} (hc : c.Allowed a) : Sane a (c.perform d) := by
  obtain ⟨zoom, lens, durations, duration, isos, iso, bias, gain, gains⟩ := h
  cases c with
  | setFocusModeLocked lensPosition =>
    exact ⟨zoom, hc.2.isSome, durations, duration, isos, iso, bias, gain, gains⟩
  | setExposureModeCustom duration iso =>
    exact ⟨zoom, lens, durations, hc.2.1, isos, hc.2.2, bias, gain, gains⟩
  | _ => exact ⟨zoom, lens, durations, duration, isos, iso, bias, gain, gains⟩

theorem Sane.foldl (h : Sane a d) {calls : List (Call τ)} (hcalls : ∀ c ∈ calls, c.Allowed a) :
    Sane a (calls.foldl Call.perform d) := by
  induction calls generalizing d with
  | nil => exact h
  | cons c calls ih =>
    obtain ⟨hc, hrest⟩ := List.forall_mem_cons.mp hcalls
    exact ih (h.perform hc) hrest

theorem allowed_stages {stage : Settings τ → List (Call τ)} (hstage : stage ∈ stages seconds a u)
    (h : Sane a d) : ∀ c ∈ stage d, c.Allowed a := by
  simp only [stages, List.mem_cons, List.not_mem_nil, or_false] at hstage
  rcases hstage with rfl | rfl | rfl | rfl | rfl | rfl | rfl | rfl
  · exact allowed_zoomCalls h
  · exact allowed_pointCalls
  · exact allowed_focusCalls h
  · exact allowed_exposureCalls h
  · exact allowed_biasCalls h
  · exact allowed_whiteBalanceCalls h
  · exact allowed_torchCalls
  · exact allowed_stabilizationCalls

/-- **A device is asked for nothing that it does not allow**, and stays within its ranges. -/
theorem allowed_of_apply (seconds : Double → τ) (u : CameraControlUpdate) (h : Sane a d) :
    (∀ c ∈ (apply seconds a u d).2, c.Allowed a) ∧ Sane a (apply seconds a u d).1 := by
  have hfold : ∀ (rest : List (Settings τ → List (Call τ))) (done : Settings τ × List (Call τ)),
      rest ⊆ stages seconds a u → (∀ c ∈ done.2, c.Allowed a) ∧ Sane a done.1 →
      (∀ c ∈ (rest.foldl (fun done stage => Camera.perform (stage done.1) done) done).2,
        c.Allowed a) ∧
        Sane a (rest.foldl (fun done stage => Camera.perform (stage done.1) done) done).1 := by
    intro rest
    induction rest with
    | nil => exact fun _ _ h => h
    | cons stage rest ih =>
      intro done hsub hdone
      obtain ⟨hstage, hrest⟩ := List.cons_subset.mp hsub
      have hallowed := allowed_stages hstage hdone.2
      exact ih _ hrest ⟨List.forall_mem_append.mpr ⟨hdone.1, hallowed⟩, hdone.2.foldl hallowed⟩
  exact hfold _ _ (List.Subset.refl _) ⟨List.forall_mem_nil _, h⟩

end Allowed

end RemoteCam.Phone.Camera
