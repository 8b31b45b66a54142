import RemoteCam.App.PhoneControls
import RemoteCam.Phone.CaptureEngine
import RemoteCam.Phone.Reports

/-! # The choice of a camera

The phone lists its cameras in its capabilities, the window shows the names, and a choice goes back to
the phone as a lens and a position. The phone opens the first camera that has both.

`opened_of_run`: so the camera that was chosen is opened if and only if no camera before it in the list
has its lens and its position, and beside a virtual camera the wide-angle camera on the back is out of
reach. -/

namespace RemoteCam.Link.CameraChoice

open RemoteCam.Lib.Transitions
open RemoteCam.App.PhoneControls
open RemoteCam.Cbor.Codec (Bytes)
open RemoteCam.Control.Capabilities (Text CameraPosition CameraLens CapsFit descriptor Position
  DeviceType)
open RemoteCam.Control.Commands
open RemoteCam.Control.Envelope
open RemoteCam.Control.Messages (literal parseCaps Message)
open RemoteCam.Control.StreamFormats
open RemoteCam.Phone.CaptureEngine (AVCaptureDevice World Answers isBack isVirtualMultiLens isWideAngle)
open RemoteCam.Phone.Reports

/-! ### The phone -/

section Phone
variable {ι τ : Type}

def deviceRank (device : AVCaptureDevice ι τ) : ℕ :=
  if isBack device.position && isVirtualMultiLens device.deviceType then 0
  else if isBack device.position && device.deviceType matches .builtInUltraWideCamera then 1
  else if isBack device.position && isWideAngle device.deviceType then 2
  else if isBack device.position && device.deviceType matches .builtInTelephotoCamera then 3
  else if device.position matches .front then 10
  else 9

/-- The devices that the framework has found, `sorted` by rank. -/
def discoverDevices (found : List (AVCaptureDevice ι τ)) : List (AVCaptureDevice ι τ) :=
  found.insertionSort fun a b => deviceRank a ≤ deviceRank b

/-- The texts of the framework. -/
structure Texts (ι : Type) where
  uniqueID : ι → Text
  localizedName : ι → Text

/-- What the capabilities are made of. -/
def described (texts : Texts ι) (device : AVCaptureDevice ι τ) :
    Control.Capabilities.AVCaptureDevice where
  uniqueID := texts.uniqueID device.uniqueID
  localizedName := texts.localizedName device.uniqueID
  position := device.position
  deviceType := device.deviceType
  formats := device.formats

def position (device : AVCaptureDevice ι τ) : CameraPosition :=
  match device.position with
  | .front => .front
  | _ => .back

def lens (device : AVCaptureDevice ι τ) : CameraLens := Control.Capabilities.lens device.deviceType

variable (canon : Bytes → Bytes)

/-- The closure of `set_camera`. -/
def matchesChoice (lens' : Bytes) (position' : Option Bytes) (device : AVCaptureDevice ι τ) : Bool :=
  canon (literal (lens device).rawValue) = canon lens' &&
    position'.all fun position' => canon (literal (position device).rawValue) = canon position'

/-- The identifier that `switchCamera` is called with. -/
def switchTarget (devices : List (AVCaptureDevice ι τ)) : Order → Option ι
  | .setCamera lens position =>
    (devices.find? (matchesChoice canon lens position)).map AVCaptureDevice.uniqueID
  | _ => none

end Phone

/-! ### The desktop -/

/-- What the session hands out is what it made of the capabilities of the phone. -/
def polls (devices : List Control.Capabilities.AVCaptureDevice) : PhoneController → Action → Prop
  | _, .pollSession _ _ (some cameras) =>
    ∃ message received caps, (PhoneMessage.capabilities devices).build = some message ∧
      Message.decode message.encoded = .ok received ∧ parseCaps received = some caps ∧
        caps.cameras = cameras
  | _, _ => True

/-- The cameras as the desktop has them. -/
def shown (devices : List Control.Capabilities.AVCaptureDevice) :
    List Control.Messages.CameraDescriptor :=
  (caps devices).cameras.map fun camera =>
    { camera with formats := Control.Builders.sortFormats camera.formats }

/-- Of one kind: a choice does not tell them apart. -/
def sameKind {ι τ : Type} (device other : AVCaptureDevice ι τ) : Bool :=
  (lens device).rawValue = (lens other).rawValue &&
    (position device).rawValue = (position other).rawValue

/-! ### What the window shows -/

section Shown
variable {qt : Qt} {p : PhoneController} {devices : List Control.Capabilities.AVCaptureDevice}

/-- The desktop has the cameras as the phone lists them. -/
theorem shown_of_polls {trusted : Bool} {state : Backend.Session.State}
    {cameras : List Control.Messages.CameraDescriptor}
    (h : polls devices p (.pollSession trusted state (some cameras))) : cameras = shown devices := by
  obtain ⟨message, received, caps', hbuild, hdecode, hparse, rfl⟩ := h
  obtain ⟨-, rfl⟩ := (@exists_decoded_iff message _ (· = received) (PhoneMessage.encoded_eq hbuild)
    (decode_pcBuild _)).mp ⟨received, hdecode, rfl⟩
  have htaken : (PhoneMessage.capabilities devices).Taken := by
    refine (@taken_iff_parsed _ parseCaps _ _ hbuild rfl).mpr ⟨_, hdecode, ?_⟩
    rw [hparse]
    rfl
  obtain ⟨message', received', hbuild', hdecode', -, hread⟩ :=
    read_of_fit ((taken_iff_fit _).mp htaken)
  obtain rfl := Option.some.inj (hbuild.symm.trans hbuild')
  obtain rfl := Except.ok.inj (hdecode.symm.trans hdecode')
  have hcaps : (parseCaps (PhoneMessage.capabilities devices).pcBuild).map
      Control.RoundTrip.Report.caps =
      some (Control.RoundTrip.Report.caps (caps devices)).sorted := hread _ rfl
  rw [hparse] at hcaps
  have hcaps := Option.some.inj hcaps
  injection hcaps with hcaps
  rw [hcaps]
  rfl

/-- No list yet, or the list of the phone. -/
def Shows (qt : Qt) (devices : List Control.Capabilities.AVCaptureDevice)
    (p : PhoneController) : Prop :=
  (p.cameraNames, p.cameras) = ([], []) ∨
    (p.cameraNames, p.cameras) =
      ((shown devices).map fun camera => qt.fromStdString camera.name, shown devices)

theorem cameras_move (p : PhoneController) (c : CameraControls) :
    ((p.move c).cameraNames, (p.move c).cameras) = (p.cameraNames, p.cameras) := by
  unfold PhoneController.move PhoneController.scheduleControls
  split_ifs <;> rfl

theorem cameras_slide {shown lo hi value : Control.Numbers.Double}
    {moved : Control.Numbers.Double → PhoneController}
    (h : ∀ v, ((moved v).cameraNames, (moved v).cameras) = (p.cameraNames, p.cameras)) :
    ((p.slide qt shown lo hi value moved).cameraNames, (p.slide qt shown lo hi value moved).cameras) =
      (p.cameraNames, p.cameras) := by
  unfold PhoneController.slide
  split_ifs
  · rfl
  · rfl
  · exact h _

/-- Only a poll changes the list. -/
theorem cameras_next (qt : Qt) (p : PhoneController) {a : Action}
    (h : ∀ trusted state cameras, a ≠ .pollSession trusted state (some cameras)) :
    ((next qt p a).cameraNames, (next qt p a).cameras) = (p.cameraNames, p.cameras) := by
  cases a with
  | setCameraIndex index result =>
    unfold next PhoneController.setCameraIndex
    dsimp only
    split_ifs
    · rfl
    · rfl
    · split <;> rfl
  | setCodec codec =>
    unfold next PhoneController.setCodec
    dsimp only
    split_ifs <;> rfl
  | setResolution resolution =>
    unfold next PhoneController.setResolution
    dsimp only
    split_ifs
    · rfl
    · split
      · split
        · split_ifs <;> rfl
        · rfl
      · rfl
  | setFrameRate frameRate =>
    unfold next PhoneController.setFrameRate
    dsimp only
    split_ifs <;> rfl
  | setPreviewEnabled enabled result =>
    unfold next PhoneController.setPreviewEnabled
    dsimp only
    split_ifs <;> rfl
  | setPhoneZoom value => exact cameras_slide fun v => cameras_move _ _
  | setFocus value => exact cameras_slide fun v => cameras_move _ _
  | setExposureBias value => exact cameras_slide fun v => cameras_move _ _
  | setWhiteBalance value => exact cameras_slide fun v => cameras_move _ _
  | setTorch enabled =>
    unfold next PhoneController.setTorch
    dsimp only
    split_ifs
    · rfl
    · exact cameras_move _ _
  | setStabilization enabled =>
    unfold next PhoneController.setStabilization
    dsimp only
    split_ifs
    · rfl
    · exact cameras_move _ _
  | applyFormat result =>
    unfold next PhoneController.applyFormat
    dsimp only
    split <;> rfl
  | pollSession trusted state caps =>
    cases caps with
    | some cameras => exact absurd rfl (h trusted state cameras)
    | none =>
      unfold next PhoneController.pollSession
      dsimp only
      split_ifs <;> rfl
  | flushControls result => rfl

theorem Shows.next (h : Shows qt devices p) {a : Action} (ha : polls devices p a) :
    Shows qt devices (App.PhoneControls.next qt p a) := by
  by_cases hpoll : ∃ trusted state cameras, a = .pollSession trusted state (some cameras)
  · obtain ⟨trusted, state, cameras, rfl⟩ := hpoll
    obtain rfl := shown_of_polls ha
    have hlist (q : PhoneController) (hq : Shows qt devices q) :
        Shows qt devices
          (if (shown devices).map (fun camera => qt.fromStdString camera.name) = q.cameraNames then q
          else
            { q with
              cameraNames := (shown devices).map fun camera => qt.fromStdString camera.name
              cameras := shown devices
              cameraIndex :=
                if q.cameraIndex < 0 ∧ shown devices ≠ [] then 0 else q.cameraIndex }) := by
      by_cases hsame : (shown devices).map (fun camera => qt.fromStdString camera.name) = q.cameraNames
      · rw [if_pos hsame]
        exact hq
      · rw [if_neg hsame]
        exact .inr rfl
    refine hlist _ ?_
    split_ifs <;> exact h
  · unfold Shows
    rw [cameras_next qt p fun trusted state cameras heq => hpoll ⟨trusted, state, cameras, heq⟩]
    exact h

theorem shows_of_run {as : List Action} (h : (controller qt).Legal (polls devices) {} as) :
    Shows qt devices ((controller qt).exec {} as) :=
  h.invariant (.inl rfl) fun _ _ hs _ ha => hs.next ha

end Shown

/-! ### What the phone opens -/

section Opened
variable {ι τ : Type} {canon : Bytes → Bytes} {found : List (AVCaptureDevice ι τ)}

theorem ascii_rawValue (device : AVCaptureDevice ι τ) :
    Ascii (lens device).rawValue ∧ Ascii (position device).rawValue :=
  ⟨Control.Capabilities.ascii_lens _, Control.Capabilities.ascii_position _⟩

/-- The closure tells kinds apart. -/
theorem matchesChoice_eq (hcanon : ∀ s, Ascii s → canon (literal s) = literal s)
    (device other : AVCaptureDevice ι τ) :
    matchesChoice canon (literal (lens device).rawValue) (some (literal (position device).rawValue))
      other = sameKind device other := by
  obtain ⟨hlens, hposition⟩ := ascii_rawValue device
  obtain ⟨hlens', hposition'⟩ := ascii_rawValue other
  have hl := (canon_literal_eq hcanon hlens' hlens).trans eq_comm
  have hp := (canon_literal_eq hcanon hposition' hposition).trans eq_comm
  unfold matchesChoice sameKind
  rw [Option.all_some, decide_eq_decide.mpr hl, decide_eq_decide.mpr hp]

/-- The choice of a device that the phone has listed. -/
def choice (device : AVCaptureDevice ι τ) : Command :=
  .setCamera (literal (lens device).rawValue) (some (literal (position device).rawValue))

theorem valid_choice (device : AVCaptureDevice ι τ) : (choice device).Valid := by
  obtain ⟨hlens, hposition⟩ := ascii_rawValue device
  refine ⟨?_, ?_⟩
  · simp only [choice, Command.texts, Option.toList, List.forall_mem_cons]
    exact ⟨wellFormed_literal hlens, wellFormed_literal hposition, List.forall_mem_nil _⟩
  · unfold choice
    generalize lens device = l
    generalize position device = p
    cases l <;> cases p <;> decide +kernel

/-- The first of a kind comes before the others, if the list is in order. -/
theorem find?_first {α : Type} {r : α → α → Prop} {p : α → Bool} {l : List α} {a : α}
    (hsorted : l.Pairwise r) (h : l.find? p = some a) : ∀ b ∈ l, p b = true → b = a ∨ r a b := by
  obtain ⟨-, before, after, rfl, hbefore⟩ := List.find?_eq_some_iff_append.mp h
  intro b hb hp
  rcases List.mem_append.mp hb with hb | hb
  · exact absurd hp (by simpa using hbefore b hb)
  · rcases List.mem_cons.mp hb with rfl | hb
    · exact .inl rfl
    · exact .inr ((List.pairwise_cons.mp (List.pairwise_append.mp hsorted).2.1).1 b hb)

theorem ranked_discoverDevices (found : List (AVCaptureDevice ι τ)) :
    (discoverDevices found).Pairwise fun a b => deviceRank a ≤ deviceRank b :=
  have : Std.Total fun a b : AVCaptureDevice ι τ => deviceRank a ≤ deviceRank b :=
    ⟨fun _ _ => Nat.le_total _ _⟩
  have : IsTrans _ fun a b : AVCaptureDevice ι τ => deviceRank a ≤ deviceRank b :=
    ⟨fun _ _ _ => Nat.le_trans⟩
  List.pairwise_insertionSort _ found

theorem mem_discoverDevices {device : AVCaptureDevice ι τ} :
    device ∈ discoverDevices found ↔ device ∈ found :=
  List.mem_insertionSort _

theorem sameKind_self (device : AVCaptureDevice ι τ) : sameKind device device = true := by
  unfold sameKind
  rw [decide_eq_true rfl, decide_eq_true rfl]
  rfl

/-- A virtual camera is of the kind of a wide-angle camera, and it comes first. -/
theorem ne_of_virtual {device virtual first : AVCaptureDevice ι τ}
    (hfirst : (discoverDevices found).find? (sameKind device) = some first)
    (hback : isBack device.position = true) (hwide : isWideAngle device.deviceType = true)
    (hmem : virtual ∈ found) (hback' : isBack virtual.position = true)
    (hvirtual : isVirtualMultiLens virtual.deviceType = true) : first ≠ device := by
  rintro rfl
  have hlens : lens first = .wide := by
    unfold lens
    cases hd : first.deviceType <;> rw [hd] at hwide <;> first | rfl | cases hwide
  have hlens' : lens virtual = .wide := by
    unfold lens
    cases hd : virtual.deviceType <;> rw [hd] at hvirtual <;> first | rfl | cases hvirtual
  have hposition : ∀ device : AVCaptureDevice ι τ, isBack device.position = true →
      position device = .back := by
    intro device h
    unfold position
    cases hp : device.position <;> first | rfl | (rw [hp] at h; cases h)
  have hkind : sameKind first virtual = true := by
    unfold sameKind
    rw [hlens, hlens', hposition first hback, hposition virtual hback']
    rfl
  have hrank : deviceRank virtual = 0 := by
    unfold deviceRank
    rw [hback', hvirtual]
    rfl
  have hrank' : deviceRank first = 2 := by
    unfold deviceRank
    rw [hback]
    cases hd : first.deviceType <;> rw [hd] at hwide <;> first | rfl | cases hwide
  rcases find?_first (ranked_discoverDevices found) hfirst virtual
    (mem_discoverDevices.mpr hmem) hkind with rfl | hle
  · omega
  · omega

theorem selected_of_reconnect [DecidableEq ι] {w : World ι τ} {id : ι}
    {configuration : Phone.Transport.StreamConfiguration} {answers : Answers τ}
    (h : (Phone.CaptureEngine.reconnect w id configuration answers).2 = none) :
    (Phone.CaptureEngine.reconnect w id configuration answers).1.selectedDevice = some id := by
  revert h
  unfold Phone.CaptureEngine.reconnect
  dsimp only
  by_cases hinput : (!answers.canAddInput) = true
  · rw [if_pos hinput]
    nofun
  by_cases houtput : (!w.hasOutput && !answers.canAddOutput) = true
  · rw [if_neg hinput, if_pos houtput]
    nofun
  · rw [if_neg hinput, if_neg houtput]
    exact fun _ => rfl

/-- The camera that `switchCamera` has been called with is selected. -/
theorem selected_of_configure [DecidableEq ι] [LinearOrder τ] {w : World ι τ}
    {configuration : Phone.Transport.StreamConfiguration} {id : ι} {answers : Answers τ}
    (hmem : id ∈ w.devices.map AVCaptureDevice.uniqueID)
    (h : (Phone.CaptureEngine.configure w configuration (some id) answers).2 = none) :
    (Phone.CaptureEngine.configure w configuration (some id) answers).1.selectedDevice = some id := by
  obtain ⟨device, hchoose, hid⟩ : ∃ device, Phone.CaptureEngine.choose w.devices (some id) =
      some device ∧ device.uniqueID = id := by
    obtain ⟨known, hknown, hid⟩ := List.mem_map.mp hmem
    obtain ⟨device, hfind⟩ : ∃ device, w.devices.find? (fun device => some device.uniqueID = some id) =
        some device :=
      Option.isSome_iff_exists.mp
        (List.find?_isSome.mpr ⟨known, hknown, decide_eq_true (congrArg some hid)⟩)
    have hid := List.find?_some hfind
    have hid := of_decide_eq_true hid
    unfold Phone.CaptureEngine.choose
    rw [hfind]
    exact ⟨device, rfl, Option.some.inj hid⟩
  revert h
  unfold Phone.CaptureEngine.configure
  cases configuration.validated with
  | error error => nofun
  | ok configuration =>
    dsimp only
    rw [hchoose]
    dsimp only
    split_ifs
    · nofun
    · unfold Phone.CaptureEngine.selectFormat
      cases device.formats.find? _ with
      | none => nofun
      | some format =>
        dsimp only
        split_ifs
        · nofun
        · exact fun h => (selected_of_reconnect h).trans (congrArg some hid)

end Opened

/-! ### From the window to the camera -/

section Chosen
variable {ι τ : Type} [DecidableEq ι] [LinearOrder τ]

/-- The list in the capabilities. -/
def listed (texts : Texts ι) (found : List (AVCaptureDevice ι τ)) :
    List Control.Capabilities.AVCaptureDevice :=
  (discoverDevices found).map (described texts)

/-- What comes of the choice of `device`, which has the cameras `before` in front of it. -/
structure Opened (canon : Bytes → Bytes) (found before : List (AVCaptureDevice ι τ))
    (device first : AVCaptureDevice ι τ) : Prop where
  hears : Hears canon (choice device).build fun message =>
    (handle canon message).bind (switchTarget canon (discoverDevices found)) = some first.uniqueID
  /-- The engine has the same cameras, in whatever state. -/
  opens : ∀ (w : World ι τ) (answers : Answers τ),
    w.devices.map AVCaptureDevice.uniqueID = (discoverDevices found).map AVCaptureDevice.uniqueID →
      (Phone.CaptureEngine.configure w w.configuration (some first.uniqueID) answers).2 = none →
        (Phone.CaptureEngine.configure w w.configuration (some first.uniqueID)
          answers).1.selectedDevice = some first.uniqueID
  exactly : first.uniqueID = device.uniqueID ↔ ∀ earlier ∈ before, sameKind device earlier = false
  shadowed : isBack device.position = true → isWideAngle device.deviceType = true →
    (∃ virtual ∈ found,
      isBack virtual.position = true ∧ isVirtualMultiLens virtual.deviceType = true) →
      first.uniqueID ≠ device.uniqueID

theorem opened {canon : Bytes → Bytes} (hcanon : ∀ s, Ascii s → canon (literal s) = literal s)
    {found before after : List (AVCaptureDevice ι τ)} {device : AVCaptureDevice ι τ}
    (hids : (found.map AVCaptureDevice.uniqueID).Nodup)
    (hat : discoverDevices found = before ++ device :: after) :
    ∃ first, Opened canon found before device first := by
  have hmem : device ∈ discoverDevices found := hat ▸ List.mem_append_right _ List.mem_cons_self
  obtain ⟨first, hfirst⟩ : ∃ first, (discoverDevices found).find? (sameKind device) = some first :=
    Option.isSome_iff_exists.mp (List.find?_isSome.mpr ⟨device, hmem, sameKind_self device⟩)
  have hmem' : first ∈ discoverDevices found := List.mem_of_find?_eq_some hfirst
  have hnodup : ((discoverDevices found).map AVCaptureDevice.uniqueID).Nodup :=
    ((List.perm_insertionSort _ found).map _).nodup_iff.mpr hids
  have hinj : first.uniqueID = device.uniqueID ↔ first = device :=
    ⟨fun h => List.inj_on_of_nodup_map hnodup hmem' hmem h, congrArg _⟩
  refine ⟨first, ?_, ?_, ?_, ?_⟩
  · refine (command_crosses hcanon (choice device) (valid_choice device)).imp fun message hmessage => ?_
    rw [hmessage]
    change ((discoverDevices found).find? _).map AVCaptureDevice.uniqueID = _
    rw [funext (matchesChoice_eq hcanon device), hfirst]
    rfl
  · intro w answers hdevices
    exact selected_of_configure (hdevices ▸ List.mem_map_of_mem hmem')
  · rw [hinj]
    rw [hat, List.find?_append, List.find?_cons, sameKind_self] at hfirst
    constructor
    · rintro rfl earlier hearlier
      cases hfind : before.find? (sameKind first) with
      | none => exact Bool.eq_false_iff.mpr (List.find?_eq_none.mp hfind earlier hearlier)
      | some other =>
        rw [hfind] at hfirst
        obtain rfl := Option.some.inj hfirst
        rw [hat, List.map_append, List.map_cons] at hnodup
        exact absurd rfl ((List.nodup_append.mp hnodup).2.2 _
          (List.mem_map_of_mem (List.mem_of_find?_eq_some hfind)) _ List.mem_cons_self)
    · intro hnone
      have hfind : before.find? (sameKind device) = none :=
        List.find?_eq_none.mpr fun earlier hearlier => by simp [hnone earlier hearlier]
      rw [hfind] at hfirst
      exact (Option.some.inj hfirst).symm
  · rintro hback hwide ⟨virtual, hvirtual, hback', hmulti⟩ heq
    exact ne_of_virtual hfirst hback hwide hvirtual hback' hmulti (hinj.mp heq)

/-- **The camera that was chosen is opened**, in every run of the window and however the connection
cuts the bytes, if and only if no camera before it in the list has its lens and its position; the
phone opens the first of these. A wide-angle camera on the back is never opened by its name when the
phone has a virtual camera there. -/
theorem opened_of_run (qt : Qt) {canon : Bytes → Bytes}
    (hcanon : ∀ s, Ascii s → canon (literal s) = literal s) (texts : Texts ι)
    {found : List (AVCaptureDevice ι τ)} (hids : (found.map AVCaptureDevice.uniqueID).Nodup)
    {as : List Action} (h : (controller qt).Legal (polls (listed texts found)) {} as) {index : ℤ}
    {result : HRESULT}
    (hasked : (((controller qt).exec {} as).setCameraIndex qt index result).requests ≠
      ((controller qt).exec {} as).requests) :
    ∃ before device after, discoverDevices found = before ++ device :: after ∧
      index = before.length ∧
      ((controller qt).exec {} as).cameraNames[before.length]? =
        some (qt.fromStdString (texts.localizedName device.uniqueID).1) ∧
      (((controller qt).exec {} as).setCameraIndex qt index result).requests =
        ((controller qt).exec {} as).requests ++ [.command (choice device) result] ∧
      ∃ first, Opened canon found before device first := by
  have hshows := shows_of_run h
  generalize (controller qt).exec {} as = p at hshows hasked ⊢
  revert hasked
  unfold PhoneController.setCameraIndex
  split_ifs with hrange hsame
  · exact fun hasked => absurd rfl hasked
  · exact fun hasked => absurd rfl hasked
  obtain ⟨hlo, hhi⟩ := not_or.mp hrange
  obtain ⟨n, rfl⟩ := Int.eq_ofNat_of_zero_le (not_lt.mp hlo)
  rcases hshows with hnone | hshown
  · obtain ⟨-, hcameras⟩ := Prod.mk.inj hnone
    rw [hcameras] at hhi
    exact absurd (Int.natCast_nonneg n) hhi
  · obtain ⟨hnames, hcameras⟩ := Prod.mk.inj hshown
    have hlist : p.cameras = (discoverDevices found).map fun device =>
        { cameraDescriptor ⟨Control.Capabilities.descriptor (described texts device),
            (Control.Capabilities.offered (described texts device)).dedup⟩ with
          formats := Control.Builders.sortFormats ((Control.Capabilities.offered
            (described texts device)).dedup.map captureFormat) } := by
      rw [hcameras]
      unfold shown caps Control.Capabilities.CaptureEngine.capabilities listed
      simp only [List.map_map]
      rfl
    have hlen : n < (discoverDevices found).length := by
      rw [hlist, List.length_map] at hhi
      omega
    have hget := List.getElem?_eq_getElem hlen
    generalize (discoverDevices found)[n] = device at hget
    have hat : discoverDevices found =
        (discoverDevices found).take n ++ device :: (discoverDevices found).drop (n + 1) := by
      obtain ⟨_, rfl⟩ := List.getElem?_eq_some_iff.mp hget
      rw [← List.drop_eq_getElem_cons hlen, List.take_append_drop]
    have hcount : ((discoverDevices found).take n).length = n := List.length_take_of_le hlen.le
    have hcamera := congrArg (·[n]?) hlist
    simp only [List.getElem?_map, hget, Option.map_some] at hcamera
    refine fun _ => ⟨_, device, _, hat, ?_, ?_, ?_, opened hcanon hids hat⟩
    · rw [hcount]
    · rw [hcount, hnames, List.getElem?_map, ← hcameras, hcamera]
      rfl
    · rw [Int.toNat_natCast, hcamera]
      rfl

end Chosen

/-- A phone with three lenses on the back, and the camera that has them all. -/
def camera (uniqueID : ℕ) (position : Position) (deviceType : DeviceType) : AVCaptureDevice ℕ ℤ :=
  { Phone.CaptureEngine.wideCamera with uniqueID, position, deviceType, formats := [] }

def frontCamera : AVCaptureDevice ℕ ℤ := camera 0 .front .builtInTrueDepthCamera

def backCamera : AVCaptureDevice ℕ ℤ := camera 1 .back .builtInWideAngleCamera

def ultraWideCamera : AVCaptureDevice ℕ ℤ := camera 2 .back .builtInUltraWideCamera

def tripleCamera : AVCaptureDevice ℕ ℤ := camera 3 .back .builtInTripleCamera

def phone : List (AVCaptureDevice ℕ ℤ) := [frontCamera, backCamera, ultraWideCamera, tripleCamera]

def names : Texts ℕ where
  uniqueID
    | 0 => ⟨literal "0", wellFormed_literal (by decide)⟩
    | 1 => ⟨literal "1", wellFormed_literal (by decide)⟩
    | 2 => ⟨literal "2", wellFormed_literal (by decide)⟩
    | _ => ⟨literal "3", wellFormed_literal (by decide)⟩
  localizedName
    | 0 => ⟨literal "Front Camera", wellFormed_literal (by decide)⟩
    | 1 => ⟨literal "Back Camera", wellFormed_literal (by decide)⟩
    | 2 => ⟨literal "Back Ultra Wide Camera", wellFormed_literal (by decide)⟩
    | _ => ⟨literal "Back Triple Camera", wellFormed_literal (by decide)⟩

theorem discoverDevices_phone :
    discoverDevices phone = [tripleCamera, ultraWideCamera, backCamera, frontCamera] := rfl

theorem polls_phone (p : PhoneController) (trusted : Bool) (state : Backend.Session.State) :
    polls (listed names phone) p (.pollSession trusted state (some (shown (listed names phone)))) := by
  have hbare : ∀ device ∈ discoverDevices phone, device.formats = [] := by
    rw [discoverDevices_phone]
    simp only [List.forall_mem_cons]
    exact ⟨rfl, rfl, rfl, rfl, List.forall_mem_nil _⟩
  have hfit : (PhoneMessage.capabilities (listed names phone)).Fit := by
    refine ⟨by decide +kernel, by decide +kernel, ?_⟩
    intro device hdevice format hformat
    obtain ⟨bare, hmem, rfl⟩ := List.mem_map.mp hdevice
    rw [described, hbare bare hmem] at hformat
    cases hformat
  obtain ⟨message, received, hbuild, hdecode, -, hread⟩ := read_of_fit hfit
  have hcaps : (parseCaps received).map Control.RoundTrip.Report.caps =
      some (Control.RoundTrip.Report.caps (caps (listed names phone))).sorted := hread _ rfl
  obtain ⟨parsed, hparsed, heq⟩ := Option.map_eq_some_iff.mp hcaps
  injection heq with heq
  refine ⟨message, received, parsed, hbuild, hdecode, hparsed, ?_⟩
  rw [heq]
  rfl

/-- The third name is the back camera's, and another camera is opened. -/
theorem opened_of_run_shadowed :
    ∃ first, Opened id phone [tripleCamera, ultraWideCamera] backCamera first ∧
      first.uniqueID ≠ backCamera.uniqueID := by
  have hlegal : (controller seven).Legal (polls (listed names phone)) {}
      [.pollSession true .ready (some (shown (listed names phone)))] :=
    ⟨trivial, polls_phone _ _ _, trivial⟩
  have hasked : (((controller seven).exec {}
      [.pollSession true .ready (some (shown (listed names phone)))]).setCameraIndex seven 2 0).requests ≠
        ((controller seven).exec {}
          [.pollSession true .ready (some (shown (listed names phone)))]).requests := by
    decide +kernel
  obtain ⟨before, device, after, hat, hindex, -, -, first, hopened⟩ :=
    @opened_of_run ℕ ℤ _ _ seven id (fun _ _ => rfl) names phone (by decide) _ hlegal 2 0 hasked
  obtain ⟨one, two, rfl⟩ : ∃ one two, before = [one, two] := List.length_eq_two.mp (by omega)
  rw [discoverDevices_phone] at hat
  injection hat with hone hat
  injection hat with htwo hat
  injection hat with hdevice hat
  subst hone htwo hdevice
  exact ⟨first, hopened, hopened.shadowed rfl rfl
    ⟨tripleCamera, by simp [phone], rfl, rfl⟩⟩

end RemoteCam.Link.CameraChoice
