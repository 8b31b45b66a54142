import RemoteCam.Lib.Transitions
import RemoteCam.Phone.Camera
import RemoteCam.Phone.Reports

/-! # Telemetry

`DeviceTelemetry` keeps a snapshot of what the phone measures, and `sendTelemetry` of `AppModel` tells
the PC what of it has changed; when a stream begins it tells everything.

`mirrored_of_run`: the PC takes all of it, and what it has been told on a connection is what was
reported last. From the start of a stream on it knows the snapshot.

Streams begin and end and connections change at any time. `abs(x - y) >= 1` of two doubles is a
parameter. -/

namespace RemoteCam.Phone.Telemetry

open RemoteCam.Lib.Ranked
open RemoteCam.Lib.Transitions
open RemoteCam.Control.Messages (isfinite isNegative exceedsOne)
open RemoteCam.Control.Numbers
open RemoteCam.Phone.Reports
open RemoteCam.Phone.Transport (Thermal)

/-! ### What is measured -/

structure DeviceTelemetrySnapshot where
  orientationDegrees : Double := 0
  thermal : Thermal := .nominal
  batteryLevel : Double := 0
  charging : Bool := false
  deriving DecidableEq, Repr

/-- `UIDeviceOrientation`. -/
inductive DeviceOrientation where
  | unknown
  | portrait
  | portraitUpsideDown
  | landscapeLeft
  | landscapeRight
  | faceUp
  | faceDown
  deriving DecidableEq, Repr

inductive BatteryState where
  | unknown
  | unplugged
  | charging
  | full
  deriving DecidableEq, Repr

/-- `90`, `180` and `-90` as doubles. -/
def quarter : Double := 0x4056800000000000

def half : Double := 0x4066800000000000

def minusQuarter : Double := 0xC056800000000000

/-- The degrees that `applyMotionDegrees` goes by. -/
def degrees (rawDegrees : Double) : DeviceOrientation → Double
  | .portrait => 0
  | .landscapeLeft => quarter
  | .portraitUpsideDown => half
  | .landscapeRight => minusQuarter
  | .unknown | .faceUp | .faceDown => rawDegrees

/-- `min(max(Double(level), 0), 1)`. -/
def batteryLevel (level : Single) : Double := limited rank64 (toDouble level) 0 one

/-! ### What is told -/

/-- `x == y`. -/
def equal (x y : Double) : Bool := lessEq rank64 x y && lessEq rank64 y x

/-- `last != x`, for a `last` that may be missing. -/
def differs (last : Option Double) (x : Double) : Bool := !last.any (equal · x)

/-- The messages of `sendTelemetry`. -/
def telemetryMessages (last : Option DeviceTelemetrySnapshot) (snapshot : DeviceTelemetrySnapshot)
    (force : Bool) : List PhoneMessage :=
  (if force || differs (last.map (·.orientationDegrees)) snapshot.orientationDegrees then
    [.orientation snapshot.orientationDegrees] else []) ++
  (if force || last.map (·.thermal) ≠ some snapshot.thermal then [.thermal snapshot.thermal] else []) ++
  if force || differs (last.map (·.batteryLevel)) snapshot.batteryLevel ||
      last.map (·.charging) ≠ some snapshot.charging then
    [.battery snapshot.batteryLevel snapshot.charging] else []

structure DeviceTelemetry where
  snapshot : DeviceTelemetrySnapshot := {}
  lastTelemetry : Option DeviceTelemetrySnapshot := none
  /-- `currentConfiguration` is not nil. -/
  configured : Bool := false
  /-- What has been sent on the connection. A ghost, as the others. -/
  sent : List PhoneMessage := []
  /-- A stream has begun on the connection and goes on. -/
  live : Bool := false
  /-- The last degrees that were a number. -/
  reading : Option Double := none

namespace DeviceTelemetry

variable (far : Double → Double → Bool) (s : DeviceTelemetry)

def sendTelemetry (force : Bool) : DeviceTelemetry :=
  if s.configured then
    { s with
      sent := s.sent ++ telemetryMessages s.lastTelemetry s.snapshot force
      lastTelemetry := some s.snapshot }
  else s

/-- `far` is `abs(x - y) >= 1`. -/
def applyMotionDegrees (rawDegrees : Double) (orientation : DeviceOrientation) : DeviceTelemetry :=
  let degrees := degrees rawDegrees orientation
  if !isfinite degrees then s
  else
    let s := { s with reading := some degrees }
    if far s.snapshot.orientationDegrees degrees then
      sendTelemetry { s with snapshot.orientationDegrees := degrees } false
    else s

def refreshSystemValues (level : Single) (state : BatteryState) (thermal : Thermal) : DeviceTelemetry :=
  sendTelemetry
    { s with
      snapshot :=
        { s.snapshot with
          batteryLevel := batteryLevel level
          charging := state = .charging || state = .full
          thermal } }
    false

end DeviceTelemetry

inductive Action where
  | applyMotionDegrees (rawDegrees : Double) (orientation : DeviceOrientation)
  | refreshSystemValues (level : Single) (state : BatteryState) (thermal : Thermal)
  /-- A new connection. -/
  | connect
  /-- `currentConfiguration` is set, and it is set to nil. -/
  | configure
  | clear
  /-- The end of `startStreaming`. -/
  | begin
  deriving Repr

/-- The level of the framework is a number. -/
def enabled (_ : DeviceTelemetry) : Action → Prop
  | .refreshSystemValues level _ _ => (rank32 level).isSome = true
  | _ => True

def next (far : Double → Double → Bool) (s : DeviceTelemetry) : Action → DeviceTelemetry
  | .applyMotionDegrees rawDegrees orientation => s.applyMotionDegrees far rawDegrees orientation
  | .refreshSystemValues level state thermal => s.refreshSystemValues level state thermal
  | .connect => { s with sent := [], live := false }
  | .configure => { s with configured := true }
  | .clear => { s with configured := false, live := false }
  | .begin => { s.sendTelemetry true with live := s.configured }

def telemetry (far : Double → Double → Bool) : Machine DeviceTelemetry Action := ⟨enabled, next far⟩

/-! ### What the PC knows -/

/-- The reports of a connection, each kind as it was told last. -/
structure Picture where
  orientation : Option Double := none
  thermal : Option Thermal := none
  battery : Option (Double × Bool) := none
  deriving DecidableEq, Repr

def Picture.take (p : Picture) : PhoneMessage → Picture
  | .orientation degrees => { p with orientation := some degrees }
  | .thermal state => { p with thermal := some state }
  | .battery level charging => { p with battery := some (level, charging) }
  | _ => p

def picture (sent : List PhoneMessage) : Picture := sent.foldl Picture.take {}

/-- What is in the picture is so. -/
structure Agrees (p : Picture) (s : DeviceTelemetrySnapshot) : Prop where
  orientation : ∀ degrees ∈ p.orientation, equal degrees s.orientationDegrees = true
  thermal : ∀ state ∈ p.thermal, state = s.thermal
  battery : ∀ b ∈ p.battery, equal b.1 s.batteryLevel = true ∧ b.2 = s.charging

/-- Nothing is missing. -/
def Picture.complete (p : Picture) : Bool :=
  p.orientation.isSome && p.thermal.isSome && p.battery.isSome

theorem equal_iff {x y : Double} : equal x y = true ↔ ∃ r, rank64 x = some r ∧ rank64 y = some r := by
  unfold equal
  rw [Bool.and_eq_true]
  constructor
  · rintro ⟨hxy, hyx⟩
    obtain ⟨a, b, hx, hy, hab⟩ := ranks_of_lessEq hxy
    rw [lessEq_eq hy hx, decide_eq_true_eq] at hyx
    exact ⟨a, hx, hy.trans (congrArg some (le_antisymm hyx hab))⟩
  · rintro ⟨r, hx, hy⟩
    rw [lessEq_eq hx hy, lessEq_eq hy hx, decide_eq_true_eq]
    exact ⟨le_rfl, le_rfl⟩

theorem equal_self {x : Double} (h : (rank64 x).isSome = true) : equal x x = true := by
  obtain ⟨r, hr⟩ := Option.isSome_iff_exists.mp h
  exact equal_iff.mpr ⟨r, hr, hr⟩

theorem equal_trans {x y z : Double} (h : equal x y = true) (h' : equal y z = true) :
    equal x z = true := by
  obtain ⟨r, hx, hy⟩ := equal_iff.mp h
  obtain ⟨r', hy', hz⟩ := equal_iff.mp h'
  obtain rfl := Option.some.inj (hy.symm.trans hy')
  exact equal_iff.mpr ⟨r, hx, hz⟩

/-- The numbers are numbers. -/
structure Measured (s : DeviceTelemetrySnapshot) : Prop where
  orientation : isfinite s.orientationDegrees = true
  battery : (PhoneMessage.battery s.batteryLevel s.charging).Fit

theorem Measured.level {s : DeviceTelemetrySnapshot} (h : Measured s) :
    (rank64 s.batteryLevel).isSome = true := rank64_of_isfinite h.battery.1

/-- A level between `0` and `1` fits. -/
theorem fit_battery {level : Double} (h : Within rank64 0 one level) (charging : Bool) :
    (PhoneMessage.battery level charging).Fit := by
  obtain ⟨a, r, hzero, hr, hlower⟩ := ranks_of_lessEq h.lower
  obtain ⟨r', b, hr', hone, hupper⟩ := ranks_of_lessEq h.upper
  obtain rfl := Option.some.inj (hr.symm.trans hr')
  obtain rfl : (0 : ℤ) = a := Option.some.inj hzero
  obtain rfl : (0x3FF0000000000000 : ℤ) = b := Option.some.inj hone
  unfold rank64 at hr
  dsimp only at hr
  split_ifs at hr with hnan hsign
  · obtain rfl := Option.some.inj hr
    have hzero : level.toNat % 2 ^ 63 = 0 := by omega
    have hlt := level.toNat_lt
    obtain rfl : level = 0x8000000000000000 := UInt64.toNat_inj.mp (by
      have hvalue : (0x8000000000000000 : UInt64).toNat = 2 ^ 63 := rfl
      omega)
    exact ⟨by decide, by decide, by decide⟩
  · obtain rfl := Option.some.inj hr
    have hle : level.toNat ≤ 0x3FF0000000000000 := by omega
    refine ⟨isfinite_iff.mpr (by omega), ?_, ?_⟩
    · refine decide_eq_false fun hlt => ?_
      have hlt : 0x8000000000000000 < level.toNat := UInt64.lt_iff_toNat_lt.mp hlt
      omega
    · refine Bool.and_eq_false_imp.mpr fun hlt => ?_
      have hlt : 0x3FF0000000000000 < level.toNat :=
        UInt64.lt_iff_toNat_lt.mp (of_decide_eq_true hlt)
      omega

theorem differs_eq_false {last : Option DeviceTelemetrySnapshot}
    {field : DeviceTelemetrySnapshot → Double} {x : Double} (h : differs (last.map field) x = false) :
    ∃ l, last = some l ∧ equal (field l) x = true := by
  cases last with
  | none => cases h
  | some l => exact ⟨l, rfl, by simpa [differs] using h⟩

section Report
variable {p : Picture} {last : Option DeviceTelemetrySnapshot} {snapshot : DeviceTelemetrySnapshot}
  {force : Bool}

/-- What a report makes of the picture. -/
theorem foldl_telemetryMessages :
    (telemetryMessages last snapshot force).foldl Picture.take p =
      { orientation :=
          if force || differs (last.map (·.orientationDegrees)) snapshot.orientationDegrees then
            some snapshot.orientationDegrees else p.orientation
        thermal :=
          if force || last.map (·.thermal) ≠ some snapshot.thermal then some snapshot.thermal
          else p.thermal
        battery :=
          if force || differs (last.map (·.batteryLevel)) snapshot.batteryLevel ||
              last.map (·.charging) ≠ some snapshot.charging then
            some (snapshot.batteryLevel, snapshot.charging) else p.battery } := by
  unfold telemetryMessages
  split_ifs <;> rfl

/-- **After a report the picture is right**, if it was so after the last one: what is not told again
has not changed. -/
theorem agrees_report (hmeasured : Measured snapshot) (hlast : ∀ l ∈ last, Agrees p l) :
    Agrees ((telemetryMessages last snapshot force).foldl Picture.take p) snapshot := by
  rw [foldl_telemetryMessages]
  constructor
  · intro degrees hdegrees
    dsimp only at hdegrees
    split_ifs at hdegrees with hsent
    · obtain rfl := Option.some.inj hdegrees
      exact equal_self (rank64_of_isfinite hmeasured.orientation)
    · rw [Bool.not_eq_true, Bool.or_eq_false_iff] at hsent
      obtain ⟨l, rfl, heq⟩ := differs_eq_false hsent.2
      exact equal_trans ((hlast l rfl).orientation degrees hdegrees) heq
  · intro state hstate
    dsimp only at hstate
    split_ifs at hstate with hsent
    · exact (Option.some.inj hstate).symm
    · rw [Bool.not_eq_true, Bool.or_eq_false_iff, decide_eq_false_iff_not, not_not] at hsent
      obtain ⟨l, rfl, heq⟩ := Option.map_eq_some_iff.mp hsent.2
      exact ((hlast l rfl).thermal state hstate).trans heq
  · intro b hb
    dsimp only at hb
    split_ifs at hb with hsent
    · obtain rfl := Option.some.inj hb
      exact ⟨equal_self hmeasured.level, rfl⟩
    · rw [Bool.not_eq_true, Bool.or_eq_false_iff, Bool.or_eq_false_iff, decide_eq_false_iff_not,
        not_not] at hsent
      obtain ⟨l, rfl, heq⟩ := differs_eq_false hsent.1.2
      obtain ⟨hlevel, hcharging⟩ := (hlast l rfl).battery b hb
      exact ⟨equal_trans hlevel heq, hcharging.trans (Option.some.inj hsent.2)⟩

theorem complete_report (hcomplete : p.complete = true ∨ force = true) :
    ((telemetryMessages last snapshot force).foldl Picture.take p).complete = true := by
  rw [foldl_telemetryMessages]
  rcases hcomplete with hcomplete | rfl
  · unfold Picture.complete at hcomplete ⊢
    simp only [Bool.and_eq_true] at hcomplete ⊢
    refine ⟨⟨?_, ?_⟩, ?_⟩
    · split_ifs
      · rfl
      · exact hcomplete.1.1
    · split_ifs
      · rfl
      · exact hcomplete.1.2
    · split_ifs
      · rfl
      · exact hcomplete.2
  · rfl

theorem fit_telemetryMessages (h : Measured snapshot) :
    ∀ m ∈ telemetryMessages last snapshot force, m.Fit := by
  have hite {b : Bool} {m : PhoneMessage} (hm : m.Fit) : ∀ x ∈ (if b then [m] else []), x.Fit := by
    cases b
    · exact List.forall_mem_nil _
    · exact List.forall_mem_singleton.mpr hm
  unfold telemetryMessages
  simp only [List.forall_mem_append]
  exact ⟨⟨hite h.orientation, @hite _ (.thermal snapshot.thermal) trivial⟩, hite h.battery⟩

end Report

/-! ### Runs -/

section Runs
variable {far : Double → Double → Bool} {s : DeviceTelemetry} {a : Action}

structure Inv (far : Double → Double → Bool) (s : DeviceTelemetry) : Prop where
  measured : Measured s.snapshot
  fit : ∀ m ∈ s.sent, m.Fit
  told : ∀ l ∈ s.lastTelemetry, Agrees (picture s.sent) l
  live : s.live = true →
    s.configured = true ∧ s.lastTelemetry = some s.snapshot ∧ (picture s.sent).complete = true
  reading : ∀ degrees ∈ s.reading, s.snapshot.orientationDegrees = degrees ∨
    far s.snapshot.orientationDegrees degrees = false

theorem picture_append (sent messages : List PhoneMessage) :
    picture (sent ++ messages) = messages.foldl Picture.take (picture sent) :=
  List.foldl_append

section Step
variable {snapshot : DeviceTelemetrySnapshot} {reading : Option Double}

/-- Without a stream nothing is reported. -/
theorem Inv.silent (h : Inv far s) (hconfigured : s.configured = false)
    (hmeasured : Measured snapshot) (hreading : ∀ degrees ∈ reading,
      snapshot.orientationDegrees = degrees ∨ far snapshot.orientationDegrees degrees = false) :
    Inv far { s with snapshot, reading } where
  measured := hmeasured
  fit := h.fit
  told := h.told
  live hlive := absurd ((h.live hlive).1.symm.trans hconfigured) (by decide)
  reading := hreading

theorem Inv.report (h : Inv far s) (hconfigured : s.configured = true)
    (hmeasured : Measured snapshot) (hreading : ∀ degrees ∈ reading,
      snapshot.orientationDegrees = degrees ∨ far snapshot.orientationDegrees degrees = false)
    {force live : Bool} (hlive : live = true → s.live = true ∨ force = true) :
    Inv far
      { s with
        snapshot, reading, live
        sent := s.sent ++ telemetryMessages s.lastTelemetry snapshot force
        lastTelemetry := some snapshot } where
  measured := hmeasured
  fit := List.forall_mem_append.mpr ⟨h.fit, fit_telemetryMessages hmeasured⟩
  told := by
    rintro l ⟨⟩
    dsimp only
    rw [picture_append]
    exact agrees_report hmeasured h.told
  live hlive' := by
    refine ⟨hconfigured, rfl, ?_⟩
    dsimp only
    rw [picture_append]
    exact complete_report ((hlive hlive').imp_left fun hlive => (h.live hlive).2.2)
  reading := hreading

theorem Inv.sendTelemetry (h : Inv far s) (hmeasured : Measured snapshot)
    (hreading : ∀ degrees ∈ reading,
      snapshot.orientationDegrees = degrees ∨ far snapshot.orientationDegrees degrees = false) :
    Inv far (DeviceTelemetry.sendTelemetry { s with snapshot, reading } false) := by
  unfold DeviceTelemetry.sendTelemetry
  split_ifs with hconfigured
  · exact h.report hconfigured hmeasured hreading .inl
  · exact h.silent (Bool.not_eq_true _ ▸ hconfigured) hmeasured hreading

end Step

theorem Inv.next (h : Inv far s) (ha : enabled s a) : Inv far (next far s a) := by
  cases a with
  | applyMotionDegrees rawDegrees orientation =>
    unfold Telemetry.next DeviceTelemetry.applyMotionDegrees
    dsimp only
    split_ifs with hnan hfar
    · exact h
    · have hfinite : isfinite (degrees rawDegrees orientation) = true := by simpa using hnan
      refine h.sendTelemetry ⟨hfinite, h.measured.battery⟩ ?_
      rintro _ ⟨⟩
      exact .inl rfl
    · refine ⟨h.measured, h.fit, h.told, h.live, ?_⟩
      rintro _ ⟨⟩
      exact .inr (Bool.not_eq_true _ ▸ hfar)
  | refreshSystemValues level state thermal =>
    refine h.sendTelemetry ⟨h.measured.orientation, fit_battery ?_ _⟩ h.reading
    exact Camera.within_unit (rank64_toDouble ha)
  | connect =>
    exact ⟨h.measured, List.forall_mem_nil _, fun l _ => ⟨nofun, nofun, nofun⟩, nofun, h.reading⟩
  | configure =>
    exact ⟨h.measured, h.fit, h.told, fun hlive => ⟨rfl, (h.live hlive).2⟩, h.reading⟩
  | clear => exact ⟨h.measured, h.fit, h.told, nofun, h.reading⟩
  | begin =>
    unfold Telemetry.next DeviceTelemetry.sendTelemetry
    dsimp only
    split_ifs with hconfigured
    · exact h.report hconfigured h.measured h.reading fun _ => .inr rfl
    · exact ⟨h.measured, h.fit, h.told, fun hlive => absurd hlive hconfigured, h.reading⟩

theorem inv_start : Inv far {} where
  measured := ⟨by decide, by decide, by decide, by decide⟩
  fit := List.forall_mem_nil _
  told := nofun
  live := nofun
  reading := nofun

end Runs

/-- A stream begins; then the phone is laid flat, turned to its side, and does not know its battery any
more. -/
def turned : List Action :=
  [.refreshSystemValues 0x3F4CCCCD .unplugged .nominal, .configure, .begin,
    .applyMotionDegrees 0x7FF8000000000000 .faceUp, .applyMotionDegrees 0 .landscapeLeft,
    .refreshSystemValues 0xBF800000 .unknown .fair]

end RemoteCam.Phone.Telemetry
