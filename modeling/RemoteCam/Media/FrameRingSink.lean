import Mathlib.Data.List.Nodup
import Mathlib.Logic.Function.Basic
import RemoteCam.Lib.Transitions
import RemoteCam.Ring.ShmRing

/-! # The staging slots of the frame ring sink

`configure`, `publish`, `stop` and what the worker of `FrameRingSink` does under `slotsMutex`, as
atomic steps; the answers of Direct3D belong to the step. The pixels and the status are left out, as
is what the worker does with a frame it has taken.

`configure` forgets the slots before it makes new ones, but the width and height of the old ones
only after the last has been made. `prepared_of_run`: where no frame is taken for one of the
geometry before a rebuild that failed, every success of `configure` leaves all slots ready;
`pendingExact_run` holds in any run. -/

namespace RemoteCam.Media.FrameRingSink

open RemoteCam.Lib.Transitions
open RemoteCam.Ring.ShmRing (kRingMaxWidth kRingMaxHeight)

abbrev HRESULT := ℤ

def FAILED (hr : HRESULT) : Prop := hr < 0

instance (hr : HRESULT) : Decidable (FAILED hr) := inferInstanceAs (Decidable (hr < 0))

def S_OK : HRESULT := 0
def S_FALSE : HRESULT := 1
def E_FAIL : HRESULT := 0x80004005 - 0x100000000
def E_INVALIDARG : HRESULT := 0x80070057 - 0x100000000
def E_OUTOFMEMORY : HRESULT := 0x8007000E - 0x100000000

/-- `HRESULT_FROM_WIN32(ERROR_INVALID_STATE)`. -/
def ERROR_INVALID_STATE : HRESULT := 0x8007139F - 0x100000000

def DXGI_FORMAT_B8G8R8A8_UNORM : ℕ := 87
def D3D11_USAGE_STAGING : ℕ := 3
def D3D11_CPU_ACCESS_READ : ℕ := 0x20000

structure D3D11_TEXTURE2D_DESC where
  Width : ℕ
  Height : ℕ
  MipLevels : ℕ := 1
  ArraySize : ℕ := 1
  Format : ℕ := DXGI_FORMAT_B8G8R8A8_UNORM
  SampleCount : ℕ := 1
  SampleQuality : ℕ := 0
  Usage : ℕ := 0
  BindFlags : ℕ := 0
  CPUAccessFlags : ℕ := 0
  MiscFlags : ℕ := 0
  deriving DecidableEq, Repr

/-- A texture and the device it belongs to. -/
structure Texture2D where
  device : Option ℕ
  desc : D3D11_TEXTURE2D_DESC
  deriving DecidableEq, Repr

structure TextureFrame where
  texture : Option Texture2D
  width : ℕ
  height : ℕ
  arraySlice : ℕ := 0
  ptsMicros : ℕ := 0
  deriving DecidableEq, Repr

/-- The description it finds, if the frame is supported. -/
def supportedFrame (frame : TextureFrame) : Option Texture2D :=
  match frame.texture with
  | none => none
  | some texture =>
    if frame.width = 0 ∨ frame.height = 0 ∨ frame.width % 2 ≠ 0 ∨ frame.height % 2 ≠ 0 ∨
        frame.width > kRingMaxWidth ∨ frame.height > kRingMaxHeight then
      none
    else if texture.desc.Format = DXGI_FORMAT_B8G8R8A8_UNORM ∧
        frame.arraySlice < texture.desc.ArraySize ∧ texture.desc.Width = frame.width ∧
        texture.desc.Height = frame.height then
      some texture
    else none

abbrev kStagingSlots : ℕ := 3

/-- A query is known by its device. -/
structure Slot where
  staging : Option Texture2D := none
  completion : Option ℕ := none
  ptsMicros : ℕ := 0
  pending : Bool := false
  deriving DecidableEq, Repr

/-- `rebuilt` is no field of the source: the calls of the last rebuild all succeeded. `crashed` is a
call through a null context. -/
structure Impl where
  slots : Fin kStagingSlots → Slot := fun _ => {}
  pending : List (Fin kStagingSlots) := []
  device : Option ℕ := none
  context : Option ℕ := none
  width : ℕ := 0
  height : ℕ := 0
  joinable : Bool := false
  rebuilt : Bool := true
  crashed : Bool := false

/-- What Direct3D answers to the calls of `configure`. -/
structure D3d where
  GetImmediateContext : Bool := true
  CreateTexture2D : Fin kStagingSlots → HRESULT := fun _ => S_OK
  CreateQuery : Fin kStagingSlots → HRESULT := fun _ => S_OK

/-- None of the calls fails. -/
def D3d.Succeeds (d3d : D3d) : Prop :=
  d3d.GetImmediateContext = true ∧
    ∀ k, ¬ FAILED (d3d.CreateTexture2D k) ∧ ¬ FAILED (d3d.CreateQuery k)

instance (d3d : D3d) : Decidable d3d.Succeeds := inferInstanceAs (Decidable (_ ∧ _))

/-! ### The steps -/

def stagingDesc (sourceDesc : D3D11_TEXTURE2D_DESC) : D3D11_TEXTURE2D_DESC :=
  { sourceDesc with
    ArraySize := 1
    MipLevels := 1
    Usage := D3D11_USAGE_STAGING
    BindFlags := 0
    CPUAccessFlags := D3D11_CPU_ACCESS_READ
    MiscFlags := 0
    SampleCount := 1
    SampleQuality := 0 }

def setSlot (s : Impl) (k : Fin kStagingSlots) (slot : Slot) : Impl :=
  { s with slots := Function.update s.slots k slot }

/-- The loop of `configure`. -/
def createSlots (device : ℕ) (desc : D3D11_TEXTURE2D_DESC) (d3d : D3d) :
    List (Fin kStagingSlots) → Impl → HRESULT × Impl
  | [], s => (S_OK, s)
  | k :: ks, s =>
    if FAILED (d3d.CreateTexture2D k) then (d3d.CreateTexture2D k, s)
    else
      let s := setSlot s k { s.slots k with staging := some ⟨some device, desc⟩ }
      if FAILED (d3d.CreateQuery k) then (d3d.CreateQuery k, s)
      else createSlots device desc d3d ks (setSlot s k { s.slots k with completion := some device })

/-- The frame is taken for one of the device and geometry the slots are there for. -/
def Unchanged (s : Impl) (frame : TextureFrame) (sourceDevice : ℕ) : Prop :=
  s.device = some sourceDevice ∧ s.width = frame.width ∧ s.height = frame.height

instance (s : Impl) (frame : TextureFrame) (sourceDevice : ℕ) :
    Decidable (Unchanged s frame sourceDevice) :=
  inferInstanceAs (Decidable (_ ∧ _))

def configure (s : Impl) (frame : TextureFrame) (texture : Texture2D) (d3d : D3d) :
    HRESULT × Impl :=
  match texture.device with
  | none => (E_FAIL, s)
  | some sourceDevice =>
    if Unchanged s frame sourceDevice then (S_OK, s)
    else
      let s :=
        { s with
          pending := []
          slots := fun _ => {}
          context := none
          device := some sourceDevice
          rebuilt := decide d3d.Succeeds }
      if d3d.GetImmediateContext = false then (E_FAIL, s)
      else
        let s := { s with context := some sourceDevice }
        let (hr, s) :=
          createSlots sourceDevice (stagingDesc texture.desc) d3d (List.finRange kStagingSlots) s
        if FAILED hr then (hr, s)
        else (S_OK, { s with width := frame.width, height := frame.height })

/-- The first slot that is not pending. -/
def available (s : Impl) : Option (Fin kStagingSlots) :=
  (List.finRange kStagingSlots).find? fun k => !(s.slots k).pending

/-- `publish`; the copy needs a context. -/
def publish (s : Impl) (frame : TextureFrame) (d3d : D3d) : HRESULT × Impl :=
  match supportedFrame frame with
  | none => (E_INVALIDARG, s)
  | some texture =>
    if s.joinable = false then (ERROR_INVALID_STATE, s)
    else
      let (hr, s) := configure s frame texture d3d
      if FAILED hr then (hr, s)
      else
        match available s with
        | none => (S_FALSE, s)
        | some k =>
          if s.context = none then (S_OK, { s with crashed := true })
          else
            let s := setSlot s k { s.slots k with ptsMicros := frame.ptsMicros, pending := true }
            (S_OK, { s with pending := s.pending ++ [k] })

def start (s : Impl) : Impl := if s.joinable then s else { s with joinable := true }

def stop (s : Impl) : Impl :=
  if s.joinable = false then s
  else
    { s with
      joinable := false
      pending := []
      slots := fun _ => {}
      context := none
      device := none
      width := 0
      height := 0 }

/-- What the worker does under the lock, with the answer of `GetData`: the first pending slot is
free again, whether it is read or given up because `GetData` or `Map` has failed. -/
def take (s : Impl) (getData : HRESULT) : Impl :=
  match s.pending with
  | [] => s
  | index :: pending =>
    if s.context = none then { s with crashed := true }
    else if getData = S_FALSE then s
    else { setSlot s index { s.slots index with pending := false } with pending := pending }

inductive Action where
  | start
  | stop
  | publish (frame : TextureFrame) (d3d : D3d)
  | take (getData : HRESULT)

def next (s : Impl) : Action → Impl
  | .start => start s
  | .stop => stop s
  | .publish frame d3d => (publish s frame d3d).2
  | .take getData => take s getData

/-- The worker waits for a pending slot. -/
def enabled (s : Impl) : Action → Prop
  | .take _ => s.crashed = false ∧ s.joinable = true ∧ s.pending ≠ []
  | _ => s.crashed = false

def sink : Machine Impl Action := ⟨enabled, next⟩

/-! ### What the claims are about -/

/-- The slot has a texture and a query of the device, for frames of this size. -/
structure Slot.Ready (slot : Slot) (device width height : ℕ) : Prop where
  staging : ∃ desc, slot.staging = some ⟨some device, desc⟩ ∧ desc.Width = width ∧
    desc.Height = height
  completion : slot.completion = some device

structure Prepared (s : Impl) (device width height : ℕ) : Prop where
  context : s.context = some device
  slots : ∀ k, (s.slots k).Ready device width height

/-- Where `configure` succeeds it leaves the slots ready for the frame. -/
def Prepares (s : Impl) : Action → Prop
  | .publish frame d3d => ∀ texture, supportedFrame frame = some texture → s.joinable = true →
      ¬ FAILED (configure s frame texture d3d).1 →
      ∃ device, texture.device = some device ∧
        Prepared (configure s frame texture d3d).2 device frame.width frame.height
  | _ => True

/-- The pending slots are listed, each once. -/
structure PendingExact (s : Impl) : Prop where
  nodup : s.pending.Nodup
  mem_iff : ∀ k, k ∈ s.pending ↔ (s.slots k).pending = true

/-- A frame for which the slots are not rebuilt comes after a rebuild that has not failed. -/
def Sound (s : Impl) : Action → Prop
  | .publish frame _ => ∀ texture ∈ supportedFrame frame, ∀ device ∈ texture.device,
      Unchanged s frame device → s.rebuilt = true
  | _ => True

instance : ∀ (s : Impl) (a : Action), Decidable (sink.enabled s a)
  | _, .take _ => inferInstanceAs (Decidable (_ ∧ _))
  | _, .start | _, .stop | _, .publish _ _ => inferInstanceAs (Decidable (_ = _))

instance : ∀ (s : Impl) (a : Action), Decidable (Sound s a)
  | _, .publish _ _ => inferInstanceAs (Decidable (∀ _ ∈ _, _))
  | _, .start | _, .stop | _, .take _ => .isTrue trivial

/-! ### The loop of `configure` -/

section
variable {device : ℕ} {desc : D3D11_TEXTURE2D_DESC} {d3d : D3d} {ks : List (Fin kStagingSlots)}
  {s : Impl}

theorem slots_setSlot (k j : Fin kStagingSlots) (slot : Slot) :
    (setSlot s k slot).slots j = if j = k then slot else s.slots j := by
  exact Function.update_apply s.slots k slot j

/-- One round of the loop: it fails, or goes on with the slot complete. -/
theorem createSlots_cons (k : Fin kStagingSlots) :
    (FAILED (createSlots device desc d3d (k :: ks) s).1 ∧
      (FAILED (d3d.CreateTexture2D k) ∨ FAILED (d3d.CreateQuery k)) ∧
      ∃ slot, slot.pending = (s.slots k).pending ∧
        (createSlots device desc d3d (k :: ks) s).2 = setSlot s k slot) ∨
    (¬ FAILED (d3d.CreateTexture2D k) ∧ ¬ FAILED (d3d.CreateQuery k) ∧
      createSlots device desc d3d (k :: ks) s =
        createSlots device desc d3d ks (setSlot s k
          { s.slots k with staging := some ⟨some device, desc⟩, completion := some device })) := by
  by_cases htexture : FAILED (d3d.CreateTexture2D k)
  · refine .inl ⟨?_, .inl htexture, s.slots k, rfl, ?_⟩
    · rw [createSlots, if_pos htexture]
      exact htexture
    · rw [createSlots, if_pos htexture, setSlot, Function.update_eq_self]
  · by_cases hquery : FAILED (d3d.CreateQuery k)
    · refine .inl ⟨?_, .inr hquery, { s.slots k with staging := some ⟨some device, desc⟩ }, rfl, ?_⟩
      · rw [createSlots, if_neg htexture]
        dsimp only
        rw [if_pos hquery]
        exact hquery
      · rw [createSlots, if_neg htexture]
        dsimp only
        rw [if_pos hquery]
    · refine .inr ⟨htexture, hquery, ?_⟩
      rw [createSlots, if_neg htexture]
      dsimp only
      rw [if_neg hquery]
      unfold setSlot
      simp only [Function.update_self, Function.update_idem]

/-- Only the slots change, and of these not the pending flags. -/
theorem createSlots_frame :
    (createSlots device desc d3d ks s).2 =
      { s with slots := (createSlots device desc d3d ks s).2.slots } ∧
    ∀ k, ((createSlots device desc d3d ks s).2.slots k).pending = (s.slots k).pending := by
  induction ks generalizing s with
  | nil => exact ⟨rfl, fun _ => rfl⟩
  | cons k ks ih =>
    have hset : ∀ slot : Slot, slot.pending = (s.slots k).pending →
        ∀ j, ((setSlot s k slot).slots j).pending = (s.slots j).pending := by
      intro slot hslot j
      rw [slots_setSlot]
      split_ifs with hj
      · rw [hj, hslot]
      · rfl
    obtain ⟨-, -, slot, hslot, heq⟩ | ⟨-, -, heq⟩ := @createSlots_cons device desc d3d ks s k
    · rw [heq]
      exact ⟨rfl, hset slot hslot⟩
    · rw [heq]
      obtain ⟨hrest, hpending⟩ := @ih (setSlot s k
        { s.slots k with staging := some ⟨some device, desc⟩, completion := some device })
      refine ⟨hrest, fun j => (hpending j).trans (hset
        { s.slots k with staging := some ⟨some device, desc⟩, completion := some device } rfl j)⟩

/-- The loop fails where one of its calls does. -/
theorem failed_createSlots :
    FAILED (createSlots device desc d3d ks s).1 ↔
      ∃ k ∈ ks, FAILED (d3d.CreateTexture2D k) ∨ FAILED (d3d.CreateQuery k) := by
  induction ks generalizing s with
  | nil => simp [createSlots, FAILED, S_OK]
  | cons k ks ih =>
    obtain ⟨hfailed, hcall, -⟩ | ⟨htexture, hquery, heq⟩ := @createSlots_cons device desc d3d ks s k
    · exact ⟨fun _ => ⟨k, List.mem_cons_self, hcall⟩, fun _ => hfailed⟩
    · rw [heq, ih]
      simp [htexture, hquery]

/-- Where it does not, every slot it comes by has its texture and its query. -/
theorem createSlots_ready (hall : ¬ FAILED (createSlots device desc d3d ks s).1)
    (j : Fin kStagingSlots) (hj : j ∈ ks ∨ (s.slots j).Ready device desc.Width desc.Height) :
    ((createSlots device desc d3d ks s).2.slots j).Ready device desc.Width desc.Height := by
  induction ks generalizing s with
  | nil => exact hj.resolve_left List.not_mem_nil
  | cons k ks ih =>
    obtain ⟨hfailed, -, -⟩ | ⟨-, -, heq⟩ := @createSlots_cons device desc d3d ks s k
    · exact absurd hfailed hall
    · rw [heq] at hall ⊢
      refine ih hall ?_
      rw [slots_setSlot]
      by_cases hjk : j = k
      · rw [if_pos hjk]
        exact .inr ⟨⟨desc, rfl, rfl, rfl⟩, rfl⟩
      · rw [if_neg hjk]
        exact hj.imp_left fun hmem => (List.mem_cons.mp hmem).resolve_left hjk

end

/-! ### The steps -/

structure Inv (s : Impl) : Prop where
  exact : PendingExact s
  prepared : s.rebuilt = true → ∀ device, s.device = some device →
    Prepared s device s.width s.height

theorem desc_of_supportedFrame {frame : TextureFrame} {texture : Texture2D}
    (h : supportedFrame frame = some texture) :
    texture.desc.Width = frame.width ∧ texture.desc.Height = frame.height := by
  unfold supportedFrame at h
  split at h
  · exact absurd h nofun
  · split_ifs at h with _ hdesc
    obtain rfl := Option.some.inj h
    exact hdesc.2.2

/-- No slot is pending. -/
theorem pendingExact_of_empty {s : Impl} (hnone : s.pending = [])
    (hslots : ∀ k, (s.slots k).pending = false) : PendingExact s := by
  refine ⟨?_, fun k => ?_⟩
  · rw [hnone]
    exact List.nodup_nil
  · rw [hnone, hslots k]
    simp

section
variable {s : Impl} {frame : TextureFrame} {texture : Texture2D} {d3d : D3d}

/-- **What `configure` does**: nothing, or it starts from no slots and succeeds with the calls. -/
theorem configure_cases (s : Impl) (h : supportedFrame frame = some texture) (d3d : D3d) :
    (configure s frame texture d3d = (E_FAIL, s) ∧ texture.device = none) ∨
    ∃ device, texture.device = some device ∧
      ((Unchanged s frame device ∧ configure s frame texture d3d = (S_OK, s)) ∨
        ((configure s frame texture d3d).2.pending = [] ∧
          (∀ k, ((configure s frame texture d3d).2.slots k).pending = false) ∧
          ((FAILED (configure s frame texture d3d).1 ∧
              (configure s frame texture d3d).2.rebuilt = false) ∨
            ((configure s frame texture d3d).2.device = some device ∧
              (configure s frame texture d3d).2.width = frame.width ∧
              (configure s frame texture d3d).2.height = frame.height ∧
              Prepared (configure s frame texture d3d).2 device frame.width frame.height)))) := by
  obtain ⟨hwidth, hheight⟩ := desc_of_supportedFrame h
  cases hdevice : texture.device with
  | none => exact .inl ⟨by rw [configure, hdevice], rfl⟩
  | some device =>
    refine .inr ⟨device, rfl, ?_⟩
    by_cases hsame : Unchanged s frame device
    · refine .inl ⟨hsame, ?_⟩
      rw [configure, hdevice]
      exact if_pos hsame
    · refine .inr ?_
      rw [configure, hdevice]
      dsimp only
      rw [if_neg hsame]
      by_cases hcontext : d3d.GetImmediateContext = false
      · rw [if_pos hcontext]
        refine ⟨rfl, fun _ => rfl, .inl ⟨(by decide : FAILED E_FAIL), ?_⟩⟩
        simp [D3d.Succeeds, hcontext]
      · rw [if_neg hcontext]
        set fresh : Impl :=
          { s with
            pending := []
            slots := fun _ => {}
            context := some device
            device := some device
            rebuilt := decide d3d.Succeeds } with hfresh
        obtain ⟨hrest, hpending⟩ := @createSlots_frame device (stagingDesc texture.desc) d3d
          (List.finRange kStagingSlots) fresh
        have hready := fun hall k => @createSlots_ready device (stagingDesc texture.desc) d3d
          (List.finRange kStagingSlots) fresh hall k (.inl (List.mem_finRange k))
        by_cases hfailed : FAILED (createSlots device (stagingDesc texture.desc) d3d
            (List.finRange kStagingSlots) fresh).1
        · rw [if_pos hfailed]
          refine ⟨by rw [hrest], hpending, .inl ⟨hfailed, ?_⟩⟩
          obtain ⟨k, -, hk⟩ := failed_createSlots.mp hfailed
          rw [hrest]
          simp only [hfresh, decide_eq_false_iff_not]
          exact fun hall => hk.elim (hall.2 k).1 (hall.2 k).2
        · rw [if_neg hfailed]
          refine ⟨by rw [hrest], hpending, .inr ⟨by rw [hrest], rfl, rfl, ⟨by rw [hrest], ?_⟩⟩⟩
          intro k
          rw [← hwidth, ← hheight]
          exact hready hfailed k

theorem Inv.configure (h : Inv s) (hframe : supportedFrame frame = some texture) :
    Inv (configure s frame texture d3d).2 := by
  obtain ⟨heq, -⟩ | ⟨device, -, ⟨-, heq⟩ | ⟨hnone, hslots, hcall⟩⟩ := configure_cases s hframe d3d
  · rw [heq]
    exact h
  · rw [heq]
    exact h
  · refine ⟨pendingExact_of_empty hnone hslots, fun hrebuilt d hd => ?_⟩
    obtain ⟨-, hfailed⟩ | ⟨hdevice, hwidth, hheight, hprepared⟩ := hcall
    · rw [hfailed] at hrebuilt
      exact absurd hrebuilt nofun
    · obtain rfl := Option.some.inj (hdevice.symm.trans hd)
      rw [hwidth, hheight]
      exact hprepared

theorem available_not_pending {k : Fin kStagingSlots} (h : available s = some k) :
    (s.slots k).pending = false := by
  have hk := List.find?_some h
  simpa using hk

theorem Slot.Ready.congr {slot slot' : Slot} {device width height : ℕ}
    (h : slot.Ready device width height) (hstaging : slot'.staging = slot.staging)
    (hcompletion : slot'.completion = slot.completion) : slot'.Ready device width height :=
  ⟨hstaging ▸ h.staging, hcompletion ▸ h.completion⟩

/-- A slot that keeps its texture and its query stays ready. -/
theorem Prepared.setSlot {device width height : ℕ} (h : Prepared s device width height)
    (k : Fin kStagingSlots) (pts : ℕ) (pending : Bool) :
    Prepared (setSlot s k { s.slots k with ptsMicros := pts, pending := pending }) device width
      height := by
  refine ⟨h.context, fun j => ?_⟩
  rw [slots_setSlot]
  split_ifs with hj
  · exact (h.slots k).congr rfl rfl
  · exact h.slots j

/-- A free slot becomes pending, as the last. -/
theorem PendingExact.append (h : PendingExact s) {k : Fin kStagingSlots}
    (hk : (s.slots k).pending = false) (pts : ℕ) :
    PendingExact
      { setSlot s k { s.slots k with ptsMicros := pts, pending := true } with
        pending := s.pending ++ [k] } := by
  have hnot : k ∉ s.pending := by
    rw [h.mem_iff, hk]
    exact Bool.false_ne_true
  refine ⟨?_, fun j => ?_⟩
  · rw [List.nodup_append]
    refine ⟨h.nodup, List.nodup_singleton k, fun a ha b hb => ?_⟩
    rw [List.mem_singleton.mp hb]
    exact ne_of_mem_of_not_mem ha hnot
  · rw [List.mem_append, List.mem_singleton, h.mem_iff, slots_setSlot]
    split_ifs with hj
    · simp [hj]
    · simp [hj]

/-- The first pending slot becomes free. -/
theorem PendingExact.tail (h : PendingExact s) {k : Fin kStagingSlots}
    {ks : List (Fin kStagingSlots)} (hpending : s.pending = k :: ks) :
    PendingExact
      { setSlot s k { s.slots k with pending := false } with pending := ks } := by
  obtain ⟨hnot, hnodup⟩ := List.nodup_cons.mp (hpending ▸ h.nodup)
  refine ⟨hnodup, fun j => ?_⟩
  rw [slots_setSlot]
  split_ifs with hj
  · rw [hj]
    simpa using hnot
  · rw [← h.mem_iff, hpending, List.mem_cons]
    simp [hj]

theorem Inv.publish (h : Inv s) : Inv (publish s frame d3d).2 := by
  unfold FrameRingSink.publish
  split
  · exact h
  · rename_i texture hframe
    split_ifs with hjoinable
    · exact h
    · have hconfigure : Inv (FrameRingSink.configure s frame texture d3d).2 := h.configure hframe
      generalize FrameRingSink.configure s frame texture d3d = result at hconfigure
      obtain ⟨hr, s⟩ := result
      dsimp only at hconfigure ⊢
      by_cases hfailed : FAILED hr
      · rw [if_pos hfailed]
        exact hconfigure
      · rw [if_neg hfailed]
        split
        · exact hconfigure
        · rename_i k hk
          by_cases hcontext : s.context = none
          · rw [if_pos hcontext]
            exact ⟨⟨hconfigure.exact.nodup, hconfigure.exact.mem_iff⟩,
              fun hrebuilt device hdevice =>
                let hprepared := hconfigure.prepared hrebuilt device hdevice
                ⟨hprepared.context, hprepared.slots⟩⟩
          · rw [if_neg hcontext]
            refine ⟨hconfigure.exact.append (available_not_pending hk) _,
              fun hrebuilt device hdevice => ?_⟩
            have hprepared := (hconfigure.prepared hrebuilt device hdevice).setSlot k
              frame.ptsMicros true
            exact ⟨hprepared.context, hprepared.slots⟩

theorem Inv.take (h : Inv s) (getData : HRESULT) : Inv (take s getData) := by
  unfold FrameRingSink.take
  split
  · exact h
  · rename_i k ks hpending
    split_ifs
    · exact ⟨⟨h.exact.nodup, h.exact.mem_iff⟩, fun hrebuilt device hdevice =>
        ⟨(h.prepared hrebuilt device hdevice).context, (h.prepared hrebuilt device hdevice).slots⟩⟩
    · exact h
    · refine ⟨h.exact.tail hpending, fun hrebuilt device hdevice => ?_⟩
      have hprepared := (h.prepared hrebuilt device hdevice).setSlot k (s.slots k).ptsMicros false
      exact ⟨hprepared.context, hprepared.slots⟩

theorem Inv.next (h : Inv s) (a : Action) : Inv (next s a) := by
  cases a with
  | start =>
    show Inv (start s)
    unfold start
    split_ifs
    · exact h
    · exact ⟨⟨h.exact.nodup, h.exact.mem_iff⟩, fun hrebuilt device hdevice =>
        ⟨(h.prepared hrebuilt device hdevice).context, (h.prepared hrebuilt device hdevice).slots⟩⟩
  | stop =>
    show Inv (stop s)
    unfold stop
    split_ifs
    · exact h
    · exact ⟨pendingExact_of_empty rfl fun _ => rfl, fun _ _ hdevice => absurd hdevice nofun⟩
  | publish frame d3d => exact h.publish
  | take getData => exact h.take getData

theorem inv_init : Inv {} :=
  ⟨pendingExact_of_empty rfl fun _ => rfl, fun _ _ hdevice => absurd hdevice nofun⟩

/-- A sound step prepares. -/
theorem Inv.prepares (h : Inv s) {a : Action} (hsound : Sound s a) : Prepares s a := by
  cases a with
  | publish frame d3d =>
    intro texture hframe _ hok
    obtain ⟨heq, -⟩ | ⟨device, hdevice, ⟨hsame, heq⟩ | ⟨-, -, hcall⟩⟩ :=
      configure_cases s hframe d3d
    · rw [heq] at hok
      exact absurd (by decide : FAILED E_FAIL) hok
    · rw [heq]
      have hprepared := h.prepared (hsound texture hframe device hdevice hsame) device hsame.1
      rw [hsame.2.1, hsame.2.2] at hprepared
      exact ⟨device, hdevice, hprepared⟩
    · obtain ⟨hfailed, -⟩ | ⟨-, -, -, hprepared⟩ := hcall
      · exact absurd hfailed hok
      · exact ⟨device, hdevice, hprepared⟩
  | start => trivial
  | stop => trivial
  | take getData => trivial

end

/-! ### Runs -/

/-- The pending slots are listed exactly, after any calls. -/
theorem pendingExact_run {actions : List Action}
    (h : sink.Legal (fun _ _ => True) {} actions) : PendingExact (sink.exec {} actions) :=
  (h.invariant inv_init fun _ a hinv _ _ => hinv.next a).exact

/-- **Every success of `configure` leaves all slots ready**, in every run in which no frame is taken
for one of the old geometry after a rebuild that failed. -/
theorem prepared_of_run {actions : List Action} (h : sink.Legal Sound {} actions) :
    sink.Legal Prepares {} actions ∧ PendingExact (sink.exec {} actions) :=
  ⟨h.along inv_init (fun _ a hinv _ _ => hinv.next a) fun _ _ hinv _ hsound =>
      hinv.prepares hsound,
    (h.invariant inv_init fun _ a hinv _ _ => hinv.next a).exact⟩

/-- A frame of the first device of a machine. -/
def frameOf (width height : ℕ) : TextureFrame :=
  { texture := some ⟨some 1, { Width := width, Height := height }⟩, width, height }

/-- The size changes, the first texture of the new size cannot be made, and the next frame of that
size is rebuilt for. -/
theorem prepared_of_run_resized :
    sink.Legal Prepares {}
      [.start, .publish (frameOf 1920 1080) {}, .take S_OK,
        .publish (frameOf 1280 720) { CreateTexture2D := fun _ => E_OUTOFMEMORY },
        .publish (frameOf 1280 720) {}, .publish (frameOf 1280 720) {}] :=
  (prepared_of_run (by decide)).1

/-- The first size comes back instead: the slots are taken to be those of before. -/
theorem not_prepared_of_run :
    ¬ ∀ actions, sink.Legal (fun _ _ => True) {} actions → sink.Legal Prepares {} actions := by
  intro hall
  have h := hall
    [.start, .publish (frameOf 1920 1080) {},
      .publish (frameOf 1280 720) { CreateTexture2D := fun _ => E_OUTOFMEMORY },
      .publish (frameOf 1920 1080) {}] (by decide)
  obtain ⟨-, -, -, -, -, -, -, hlast, -⟩ := h
  obtain ⟨device, hdevice, hprepared⟩ := hlast ⟨some 1, { Width := 1920, Height := 1080 }⟩
    (by decide) (by decide) (by decide)
  obtain ⟨desc, hstaging, -⟩ := (hprepared.slots 0).staging
  exact absurd hstaging nofun

end RemoteCam.Media.FrameRingSink
