import RemoteCam.Control.StreamFormats

/-! # What the PC tells the camera to do

The messages for the camera, apart from formats: the PC builds them, and `handle` of the phone's
`AppModel` takes them apart. A message names only those controls that it sets.

`command_crosses`: the phone is told what the PC's user asked for, control by control. Numbers that
are not finite and modes without a name do not get through. -/

namespace RemoteCam.Control.Commands

open RemoteCam.Cbor.Codec (Bytes Value)
open RemoteCam.Cbor.CBORDecoder (CBORValue)
open RemoteCam.Cbor.Limits RemoteCam.Cbor.Utf8
open RemoteCam.Control.Messages RemoteCam.Control.Builders RemoteCam.Control.Envelope
open RemoteCam.Control.StreamFormats
open RemoteCam.Phone.Messages

/-! ### The PC -/

structure CameraControls where
  zoom : Option UInt64 := none
  focus : Option UInt64 := none
  iso : Option UInt64 := none
  exposure : Option UInt64 := none
  ev : Option UInt64 := none
  whiteBalance : Option UInt64 := none
  focusMode : Option Bytes := none
  exposureMode : Option Bytes := none
  whiteBalanceMode : Option Bytes := none
  torch : Option Bool := none
  stabilization : Option Bool := none
  deriving DecidableEq, Repr

/-- The fields that are put only if they have a value. -/
def present (entries : List (String × Option Value)) : List (String × Value) :=
  entries.filterMap fun entry => entry.2.map fun value => (entry.1, value)

def controlFields (controls : CameraControls) : List (String × Option Value) :=
  [("zoom", controls.zoom.map .double), ("focus", controls.focus.map .double),
    ("iso", controls.iso.map .double), ("exposure", controls.exposure.map .double),
    ("ev", controls.ev.map .double), ("wb", controls.whiteBalance.map .double),
    ("focus_mode", controls.focusMode.map .text),
    ("exposure_mode", controls.exposureMode.map .text),
    ("wb_mode", controls.whiteBalanceMode.map .text), ("torch", controls.torch.map .boolean),
    ("stabilization", controls.stabilization.map .boolean)]

def setControl (controls : CameraControls) : Message :=
  makeMessage "set_control" (present (controlFields controls))

def cameraFields (lens : Bytes) (position : Option Bytes) : List (String × Option Value) :=
  [("lens", some (.text lens)), ("position", position.map .text)]

def setCamera (lens : Bytes) (position : Option Bytes) : Message :=
  makeMessage "set_camera" (present (cameraFields lens position))

def requestKeyframe : Message := makeMessage "request_keyframe" []

def setPreview (enabled : Bool) : Message := makeMessage "set_preview" [("enabled", .boolean enabled)]

inductive Command where
  | requestKeyframe
  | setPreview (enabled : Bool)
  | setCamera (lens : Bytes) (position : Option Bytes)
  | setControl (controls : CameraControls)
  deriving DecidableEq, Repr

def Command.build : Command → Message
  | .requestKeyframe => Commands.requestKeyframe
  | .setPreview enabled => Commands.setPreview enabled
  | .setCamera lens position => Commands.setCamera lens position
  | .setControl controls => Commands.setControl controls

/-! ### The phone -/

/-- `FocusMode`, `ExposureMode` and `WhiteBalanceMode`. -/
inductive Mode where
  | auto
  | locked
  | manual
  deriving DecidableEq, Repr

def Mode.rawValue : Mode → String
  | .auto => "auto"
  | .locked => "locked"
  | .manual => "manual"

structure CameraControlUpdate where
  zoom : Option UInt64 := none
  focusMode : Option Mode := none
  focus : Option UInt64 := none
  exposureMode : Option Mode := none
  iso : Option UInt64 := none
  exposureSeconds : Option UInt64 := none
  exposureBias : Option UInt64 := none
  whiteBalanceMode : Option Mode := none
  whiteBalanceKelvin : Option UInt64 := none
  torchEnabled : Option Bool := none
  focusPointX : Option UInt64 := none
  focusPointY : Option UInt64 := none
  stabilizationEnabled : Option Bool := none
  deriving DecidableEq, Repr

def boolValue : CBORValue → Option Bool
  | .boolean value => some value
  | _ => none

def numericDouble : CBORValue → Option UInt64
  | .double number => if isfinite number then some number else none
  | .unsigned number => some (doubleOfNat 0 number.toNat)
  | .negative number => some (doubleOfNat (if number < 0 then 1 else 0) number.toInt.natAbs)
  | _ => none

/-- What `handle` is told to do. -/
inductive Order where
  | requestKeyframe
  | setPreview (enabled : Bool)
  | setCamera (lens : Bytes) (position : Option Bytes)
  | setControl (update : CameraControlUpdate)
  deriving DecidableEq, Repr

section Phone
variable (canon : Bytes → Bytes)

/-- `init(rawValue:)`. -/
def Mode.init (rawValue : Bytes) : Option Mode :=
  [Mode.auto, .locked, .manual].find? fun mode => canon rawValue = canon (literal mode.rawValue)

def update (fields : List (Bytes × CBORValue)) : CameraControlUpdate :=
  let number (key : String) := (field canon fields key).bind numericDouble
  let mode (key : String) := ((field canon fields key).bind stringValue).bind (Mode.init canon)
  let flag (key : String) := (field canon fields key).bind boolValue
  { zoom := number "zoom"
    focusMode := mode "focus_mode"
    focus := number "focus"
    exposureMode := mode "exposure_mode"
    iso := number "iso"
    exposureSeconds := number "exposure"
    exposureBias := number "ev"
    whiteBalanceMode := mode "wb_mode"
    whiteBalanceKelvin := number "wb"
    torchEnabled := flag "torch"
    stabilizationEnabled := flag "stabilization" }

/-- `handle(_ message:)`, without `set_format`; the session keeps four types to itself. -/
def handle (message : ControlMessage) : Option Order :=
  let is (type : String) : Bool := canon message.type = canon (literal type)
  if is "server_info" || is "pair_required" || is "ready" || is "stats" then none
  else if is "request_keyframe" then some .requestKeyframe
  else if is "set_preview" then
    ((field canon message.fields "enabled").bind boolValue).map .setPreview
  else if is "set_camera" then
    ((field canon message.fields "lens").bind stringValue).map fun lens =>
      .setCamera lens ((field canon message.fields "position").bind stringValue)
  else if is "set_control" then some (.setControl (update canon message.fields))
  else none

/-- What is left of the controls on the phone. -/
def CameraControls.update (controls : CameraControls) : CameraControlUpdate where
  zoom := controls.zoom.filter isfinite
  focusMode := controls.focusMode.bind (Mode.init canon)
  focus := controls.focus.filter isfinite
  exposureMode := controls.exposureMode.bind (Mode.init canon)
  iso := controls.iso.filter isfinite
  exposureSeconds := controls.exposure.filter isfinite
  exposureBias := controls.ev.filter isfinite
  whiteBalanceMode := controls.whiteBalanceMode.bind (Mode.init canon)
  whiteBalanceKelvin := controls.whiteBalance.filter isfinite
  torchEnabled := controls.torch
  stabilizationEnabled := controls.stabilization

def Command.order : Command → Order
  | .requestKeyframe => .requestKeyframe
  | .setPreview enabled => .setPreview enabled
  | .setCamera lens position => .setCamera lens position
  | .setControl controls => .setControl (controls.update canon)

end Phone

/-! ### Fields that may be absent -/

section Present
variable {entries : List (String × Option Value)} {canon : Bytes → Bytes}

theorem map_fst_present : ((present entries).map Prod.fst).Sublist (entries.map Prod.fst) := by
  induction entries with
  | nil => exact .slnil
  | cons entry entries ih =>
    obtain ⟨key, value⟩ := entry
    cases value with
    | none => exact ih.cons key
    | some value => exact ih.cons_cons key

theorem keys_present (h : Keys ("t" :: entries.map Prod.fst)) :
    Keys ("t" :: (present entries).map Prod.fst) where
  ascii key hkey := h.ascii key ((map_fst_present.cons_cons "t").subset hkey)
  nodup := h.nodup.sublist (map_fst_present.cons_cons "t")

theorem keys_tail {keys : List String} (h : Keys ("t" :: keys)) : Keys keys where
  ascii key hkey := h.ascii key (List.mem_cons_of_mem _ hkey)
  nodup := (List.nodup_cons.mp h.nodup).2

theorem lookup_present {key : String} (h : (entries.map Prod.fst).Nodup) :
    (present entries).lookup key = (entries.lookup key).join := by
  induction entries with
  | nil => rfl
  | cons entry entries ih =>
    obtain ⟨k, value⟩ := entry
    obtain ⟨hnew, hrest⟩ := List.nodup_cons.mp h
    have ih := ih hrest
    rw [List.lookup_cons]
    by_cases heq : key = k
    · subst heq
      rw [beq_self_eq_true]
      cases value with
      | none =>
        have hnone : entries.lookup key = none := by
          rw [List.lookup_eq_none_iff]
          exact fun e hmem => bne_iff_ne.mpr fun h => hnew (List.mem_map.mpr ⟨e, hmem, h.symm⟩)
        rw [hnone] at ih
        exact ih
      | some value => exact (List.lookup_cons).trans (by rw [beq_self_eq_true]; rfl)
    · rw [beq_eq_false_iff_ne.mpr heq]
      cases value with
      | none => exact ih
      | some value =>
        refine (List.lookup_cons).trans ?_
        rw [beq_eq_false_iff_ne.mpr heq]
        exact ih

/-- What the phone finds under a key. -/
theorem field_present {key : String} (hcanon : ∀ s, Ascii s → canon (literal s) = literal s)
    (hkeys : Keys ("t" :: entries.map Prod.fst)) (hkey : Ascii key) :
    field canon (leaves (puts (present entries))) key = (entries.lookup key).join.map leaf := by
  rw [field_puts hcanon (keys_tail (keys_present hkeys)) hkey,
    lookup_present (keys_tail hkeys).nodup]

theorem mem_present {entry : String × Value} (h : entry ∈ present entries) :
    (entry.1, some entry.2) ∈ entries := by
  obtain ⟨⟨key, value⟩, hmem, hentry⟩ := List.mem_filterMap.mp h
  obtain ⟨v, hv, rfl⟩ := Option.map_eq_some_iff.mp hentry
  obtain rfl : value = some v := hv
  exact hmem

/-- **The phone hears a message with such fields.** -/
theorem hears_present {type : String} (hcanon : ∀ s, Ascii s → canon (literal s) = literal s)
    (htype : Ascii type) (hkeys : Keys ("t" :: entries.map Prod.fst))
    (hcount : entries.length < Cbor.Codec.kMaxCollectionElements.toNat)
    (hentries : ∀ entry ∈ entries, ∀ v ∈ entry.2, IsLeaf v = true ∧ Carried 31 v)
    (hfits : (Message.encode (makeMessage type (present entries))).length ≤ kMaxPayloadBytes) :
    Hears canon (makeMessage type (present entries)) fun message =>
      message = ⟨literal type, leaves (puts (present entries))⟩ := by
  have hlen : (present entries).length ≤ entries.length := List.length_filterMap_le _ _
  have hmem : ∀ entry ∈ present entries, IsLeaf entry.2 = true ∧ Carried 31 entry.2 :=
    fun entry hentry => hentries _ (mem_present hentry) entry.2 rfl
  have hinit := init_encode hcanon htype (keys_present hkeys) (hlen.trans_lt hcount)
    (fun entry hentry => (hmem entry hentry).1) (fun entry hentry => (hmem entry hentry).2) hfits
  exact hears_of_init hfits hinit rfl

end Present

/-! ### Commands -/

namespace Command

def texts : Command → List Bytes
  | setCamera lens position => lens :: position.toList
  | setControl controls =>
    controls.focusMode.toList ++ controls.exposureMode.toList ++ controls.whiteBalanceMode.toList
  | _ => []

/-- The texts are UTF-8, and a payload holds the message. -/
structure Valid (c : Command) : Prop where
  texts : ∀ text ∈ c.texts, WellFormed text
  fits : (Message.encode c.build).length ≤ kMaxPayloadBytes

end Command

section Crossing
variable {canon : Bytes → Bytes}

theorem bind_numericDouble (x : Option UInt64) :
    ((x.map Value.double).map leaf).bind numericDouble = x.filter isfinite := by
  cases x with
  | none => rfl
  | some bits => exact (Option.filter_some).symm

theorem bind_init (x : Option Bytes) :
    (((x.map Value.text).map leaf).bind stringValue).bind (Mode.init canon) =
      x.bind (Mode.init canon) := by
  cases x <;> rfl

theorem bind_stringValue (x : Option Bytes) :
    ((x.map Value.text).map leaf).bind stringValue = x := by
  cases x <;> rfl

theorem bind_boolValue (x : Option Bool) :
    ((x.map Value.boolean).map leaf).bind boolValue = x := by
  cases x <;> rfl

theorem keys_controlFields (controls : CameraControls) :
    Keys ("t" :: (controlFields controls).map Prod.fst) :=
  (by decide : Keys ["t", "zoom", "focus", "iso", "exposure", "ev", "wb", "focus_mode",
    "exposure_mode", "wb_mode", "torch", "stabilization"])

theorem length_double (bits : UInt64) : (Cbor.Codec.encode (.double bits)).length = 9 :=
  congrArg (· + 1) (Lib.BigEndian.length_write 8 _)

theorem carried_option_double (x : Option UInt64) :
    ∀ v ∈ x.map Value.double, IsLeaf v = true ∧ Carried 31 v := by
  cases x with
  | none => nofun
  | some bits =>
    rintro v ⟨⟩
    exact ⟨rfl, carried_double bits⟩

theorem carried_option_boolean (x : Option Bool) :
    ∀ v ∈ x.map Value.boolean, IsLeaf v = true ∧ Carried 31 v := by
  cases x with
  | none => nofun
  | some value =>
    rintro v ⟨⟩
    exact ⟨rfl, carried_boolean value⟩

theorem carried_option_text {x : Option Bytes} (h : ∀ text ∈ x.toList, WellFormed text) :
    ∀ v ∈ x.map Value.text, IsLeaf v = true ∧ Carried 31 v := by
  cases x with
  | none => nofun
  | some text =>
    rintro v ⟨⟩
    exact ⟨rfl, carried_text (h text List.mem_cons_self)⟩

/-- **The update is what the controls say.** -/
theorem update_present (hcanon : ∀ s, Ascii s → canon (literal s) = literal s)
    (controls : CameraControls) :
    update canon (leaves (puts (present (controlFields controls)))) = controls.update canon := by
  have hfield {key : String} (hkey : Ascii key) :=
    @field_present (controlFields controls) canon key hcanon (keys_controlFields controls) hkey
  unfold update
  simp (disch := decide) only [hfield]
  simp only [controlFields, List.lookup_cons, String.reduceBEq, Option.join_some]
  simp only [bind_numericDouble, bind_init, bind_boolValue]
  rfl

/-- A type that is heard, among those that `handle` knows. -/
theorem canon_literal_eq {s s' : String} (hcanon : ∀ s, Ascii s → canon (literal s) = literal s)
    (h : Ascii s) (h' : Ascii s') : canon (literal s) = canon (literal s') ↔ s = s' := by
  rw [hcanon s h, hcanon s' h']
  exact ⟨literal_inj h h', congrArg literal⟩

end Crossing

/-- **A command crosses**, however the connection cuts its bytes. The canonical form of seven-bit
text is the text. -/
theorem command_crosses {canon : Bytes → Bytes}
    (hcanon : ∀ s, Ascii s → canon (literal s) = literal s) (c : Command) (h : c.Valid) :
    Hears canon c.build fun message => handle canon message = some (c.order canon) := by
  have his {type other : String} (htype : Ascii type) (hother : Ascii other) :
      decide (canon (literal type) = canon (literal other)) = decide (type = other) :=
    decide_eq_decide.mpr (canon_literal_eq hcanon htype hother)
  obtain ⟨htexts, hfits⟩ := h
  cases c with
  | requestKeyframe =>
    refine (@hears_present [] canon "request_keyframe" hcanon (by decide) (by decide) (by decide)
      (List.forall_mem_nil _) hfits).imp ?_
    rintro message rfl
    unfold handle
    simp (disch := decide) only [his]
    rfl
  | setPreview enabled =>
    refine (@hears_present [("enabled", some (.boolean enabled))] canon "set_preview" hcanon
      (by decide) (by decide : Keys ["t", "enabled"]) (by decide : 1 < _) ?_ hfits).imp ?_
    · exact List.forall_mem_singleton.mpr (carried_option_boolean (some enabled))
    · rintro message rfl
      have hfield : field canon (leaves (puts (present [("enabled", some (.boolean enabled))])))
          "enabled" = some (.boolean enabled) :=
        field_present hcanon (by decide : Keys ["t", "enabled"]) (by decide)
      unfold handle
      simp (disch := decide) only [his]
      rw [hfield]
      rfl
  | setCamera lens position =>
    have hkeys : Keys ("t" :: (cameraFields lens position).map Prod.fst) :=
      (by decide : Keys ["t", "lens", "position"])
    refine (@hears_present (cameraFields lens position) canon "set_camera" hcanon (by decide) hkeys
      (by decide : 2 < _) ?_ hfits).imp ?_
    · obtain ⟨hlens, hposition⟩ := List.forall_mem_cons.mp htexts
      simp only [cameraFields, List.forall_mem_cons]
      exact ⟨@carried_option_text (some lens) (List.forall_mem_singleton.mpr hlens),
        carried_option_text hposition, List.forall_mem_nil _⟩
    · rintro message rfl
      have hlens : field canon (leaves (puts (present (cameraFields lens position)))) "lens" =
          some (.string lens) := field_present hcanon hkeys (by decide)
      have hposition : field canon (leaves (puts (present (cameraFields lens position)))) "position" =
          (position.map Value.text).map leaf := field_present hcanon hkeys (by decide)
      unfold handle
      simp (disch := decide) only [his]
      rw [hlens, hposition, bind_stringValue]
      rfl
  | setControl controls =>
    refine (@hears_present (controlFields controls) canon "set_control" hcanon (by decide)
      (keys_controlFields controls) (by decide : 11 < _) ?_ hfits).imp ?_
    · simp only [Command.texts, List.forall_mem_append] at htexts
      obtain ⟨⟨hfocus, hexposure⟩, hwhiteBalance⟩ := htexts
      simp only [controlFields, List.forall_mem_cons]
      exact ⟨carried_option_double _, carried_option_double _, carried_option_double _,
        carried_option_double _, carried_option_double _, carried_option_double _,
        carried_option_text hfocus, carried_option_text hexposure,
        carried_option_text hwhiteBalance, carried_option_boolean _, carried_option_boolean _,
        List.forall_mem_nil _⟩
    · rintro message rfl
      unfold handle
      simp (disch := decide) only [his]
      rw [update_present hcanon]
      rfl

/-- A focus that is locked in place, and a white balance in a mode that the phone does not know. -/
def lockedFocus : Command :=
  .setControl
    { focus := some 0x3FE0000000000000, focusMode := some (literal "locked"),
      whiteBalance := some 0x7FF0000000000000, whiteBalanceMode := some (literal "daylight") }

theorem command_crosses_lockedFocus :
    Hears id lockedFocus.build fun message =>
      handle id message = some (lockedFocus.order id) ∧
        lockedFocus.order id =
          .setControl { focus := some 0x3FE0000000000000, focusMode := some .locked } := by
  have hvalid : lockedFocus.Valid := by
    refine ⟨?_, by decide +kernel⟩
    simp only [lockedFocus, Command.texts, Option.toList, List.append_nil, List.cons_append,
      List.nil_append, List.forall_mem_cons]
    exact ⟨wellFormed_literal (by decide), wellFormed_literal (by decide), List.forall_mem_nil _⟩
  exact (command_crosses (fun _ _ => rfl) lockedFocus hvalid).imp fun message hmessage =>
    ⟨hmessage, by decide⟩

end RemoteCam.Control.Commands
