import RemoteCam.Lib.Stores
import RemoteCam.Ring.ShmRing

/-! # Frames out of the ring

`FrameSource::fill`: the frame of `readLatest` is copied from the scratch buffer into the buffer of
Media Foundation, with a stride of its own. What the loads of `readLatest` find is arbitrary, since
any process may write to the section; `fill_of_read` is about every frame it can return. -/

namespace RemoteCam.Ring.Fill

open RemoteCam.Lib.Stores RemoteCam.Ring.ShmRing

/-! ### The planes of NV12 -/

/-- None of the `int`s is ever negative. -/
structure Nv12Layout where
  width : ℕ := 0
  height : ℕ := 0
  stride : ℕ := 0
  uvOffset : ℕ := 0
  totalSize : ℕ := 0
  deriving DecidableEq, Repr

def nv12Layout (width height stride : ℤ) : Nv12Layout :=
  if width ≤ 0 ∨ height ≤ 0 then {}
  else
    let w := width.toNat / 2 * 2
    let h := height.toNat / 2 * 2
    let s := if stride > 0 then stride.toNat else w
    { width := w
      height := h
      stride := s
      uvOffset := s * h
      totalSize := s * h + s * h / 2 }

/-! ### The latest frame -/

/-- What an attempt of `readLatest` finds: the last sequence, the words and the bytes of its slot,
and the slot's sequence after the copy. -/
structure Look where
  seq : ℕ
  ring : RingHeader
  after : ℕ

def readAttempts (dstCapacity : ℕ) (dst : ℕ → UInt8) :
    List Look → HResult × Option FrameInfo × (ℕ → UInt8)
  | [] => (.sFalse, none, dst)
  | look :: looks =>
    if look.seq = 0 then (.sFalse, none, dst)
    else
      match look.ring.readSlot look.seq dstCapacity with
      | none => readAttempts dstCapacity dst looks
      | some (_, some (candidate, bytes)) =>
        let copied := fun i => if i < candidate.bytesUsed then bytes.getD i 0 else dst i
        if look.after ≠ (look.ring.slots (slotIndex (look.seq - 1))).slotSeq then
          readAttempts dstCapacity copied looks
        else (.sOk, some candidate, copied)
      | some (hr, none) => (hr, none, dst)

/-- Eight attempts at most. -/
def readLatest (dstCapacity : ℕ) (dst : ℕ → UInt8) (looks : Fin 8 → Look) :
    HResult × Option FrameInfo × (ℕ → UInt8) :=
  readAttempts dstCapacity dst (List.ofFn looks)

/-! ### The source -/

def kStaleAfterMillis : ℕ := 250

structure FrameSource where
  ringReady : Bool := false
  lastWasLive : Bool := false
  everLogged : Bool := false
  mismatchLogged : Bool := false
  requestedWidth : ℕ := 0
  requestedHeight : ℕ := 0
  /-- The buffer of the thread; it keeps what it holds from frame to frame. -/
  scratch : ℕ → UInt8 := fun _ => 0

/-- What the calls on the ring return: whether `requestGeometry` succeeds, the age of the last
frame, and what `readLatest` finds. -/
structure Answers where
  requested : Bool
  millisSinceLastWrite : ℕ
  looks : Fin 8 → Look

/-- The state after a call of `fill`, its result, and its stores. -/
structure Filled where
  source : FrameSource
  live : Bool
  stores : List (Store UInt8)

/-- `static_cast<int>`. -/
def toInt (n : ℕ) : ℤ := (n : ℤ).bmod (2 ^ 32)

/-- The rows of one plane. -/
def copyRows (dst src : ℕ) (dstStride srcStride rows : ℕ) (padding : UInt8) :
    List (Store UInt8) :=
  let copyBytes := min srcStride dstStride
  (List.range rows).flatMap fun row =>
    memcpy (dst + row * dstStride) (src + row * srcStride) copyBytes ++
      if copyBytes < dstStride then
        memset (dst + row * dstStride + copyBytes) padding (dstStride - copyBytes)
      else []

def copyPlanes (src layout : Nv12Layout) : List (Store UInt8) :=
  copyRows 0 0 layout.stride src.stride layout.height 16 ++
    copyRows layout.uvOffset src.uvOffset layout.stride src.stride (layout.height / 2) 128

namespace FrameSource

/-- The geometry is published once per change. -/
def publishGeometry (fs : FrameSource) (layout : Nv12Layout) (requested : Bool) : FrameSource :=
  if fs.ringReady ∧ (layout.width ≠ fs.requestedWidth ∨ layout.height ≠ fs.requestedHeight) ∧
      requested then
    { fs with requestedWidth := layout.width, requestedHeight := layout.height }
  else fs

/-- The part of `fill` that looks at the ring: the state after it, and the stores if it is live. -/
def fillLive (fs : FrameSource) (answers : Answers) (layout : Nv12Layout) :
    FrameSource × Option (List (Store UInt8)) :=
  if fs.ringReady ∧ answers.millisSinceLastWrite ≤ kStaleAfterMillis then
    match readLatest kRingSlotBytes fs.scratch answers.looks with
    | (.sOk, some info, scratch) =>
      if info.width = layout.width ∧ info.height = layout.height ∧ info.format = kFourccNv12 then
        let src := nv12Layout (toInt info.width) (toInt info.height) (toInt info.stride)
        ({ fs with scratch, mismatchLogged := false }, some (copyPlanes src layout))
      else ({ fs with scratch, mismatchLogged := true }, none)
    | (_, _, scratch) => ({ fs with scratch }, none)
  else (fs, none)

/-- `renderPattern` are the stores of the placeholder. -/
def fill (renderPattern : Nv12Layout → ℕ → List (Store UInt8)) (fs : FrameSource)
    (answers : Answers) (layout : Nv12Layout) (frameIndex : ℕ) : Filled :=
  let (fs, stores) := fillLive (publishGeometry fs layout answers.requested) answers layout
  { source := { fs with lastWasLive := stores.isSome, everLogged := true }
    live := stores.isSome
    stores := stores.getD (renderPattern layout frameIndex) }

end FrameSource

/-! ### Layouts -/

/-- What holds of every layout, that of a degenerate frame too. -/
structure Nv12Layout.Sound (l : Nv12Layout) : Prop where
  even : l.height % 2 = 0
  uvOffset : l.uvOffset = l.height * l.stride
  totalSize : l.totalSize = l.uvOffset + l.height / 2 * l.stride

theorem half_plane {height : ℕ} (stride : ℕ) (h : height % 2 = 0) :
    stride * height / 2 = height / 2 * stride := by
  obtain ⟨half, rfl⟩ := Nat.dvd_of_mod_eq_zero h
  rw [Nat.mul_div_cancel_left half two_pos, ← Nat.mul_div_cancel_left (half * stride) two_pos]
  congr 1
  ring

theorem nv12Layout_sound (width height stride : ℤ) : (nv12Layout width height stride).Sound := by
  have heven : height.toNat / 2 * 2 % 2 = 0 := Nat.mul_mod_left _ _
  by_cases h : width ≤ 0 ∨ height ≤ 0
  · rw [nv12Layout, if_pos h]
    exact ⟨rfl, rfl, rfl⟩
  · rw [nv12Layout, if_neg h]
    exact ⟨heven, Nat.mul_comm _ _, congrArg _ (half_plane _ heven)⟩

theorem toInt_of_lt {n : ℕ} (h : n < 2 ^ 31) : toInt n = n := by
  unfold toInt
  rw [Int.bmod_def]
  split_ifs with hlt <;> omega

/-- What `geometryIsSane` lets through. -/
structure Sane (info : FrameInfo) : Prop where
  width_pos : 0 < info.width
  width_even : info.width % 2 = 0
  width_le : info.width ≤ info.stride
  height_pos : 0 < info.height
  height_even : info.height % 2 = 0
  width_max : info.width ≤ kRingMaxWidth
  height_max : info.height ≤ kRingMaxHeight
  format : info.format = kFourccNv12
  planes : info.height * info.stride + info.height / 2 * info.stride ≤ info.bytesUsed
  bytesUsed : info.bytesUsed ≤ kRingSlotBytes

theorem sane_of_geometryIsSane {info : FrameInfo} (h : geometryIsSane info = true) :
    Sane info := by
  unfold geometryIsSane at h
  split_ifs at h with hzero hmax hodd hstride hformat
  simp only [Nat.and_one_is_mod, Decidable.not_not] at hodd
  have heven : info.width % 2 ≠ 1 ∧ info.height % 2 ≠ 1 := by
    rw [← not_or, ← Nat.or_mod_two_eq_one, hodd]
    exact zero_ne_one
  have hheight : info.height % 2 = 0 := by omega
  obtain ⟨hplanes, hbytes⟩ := of_decide_eq_true h
  rw [half_plane _ hheight, Nat.mul_comm] at hplanes
  push Not at hzero hmax
  exact
    { width_pos := by omega
      width_even := by omega
      width_le := by omega
      height_pos := by omega
      height_even := hheight
      width_max := hmax.1
      height_max := hmax.2
      format := not_not.mp hformat
      planes := hplanes
      bytesUsed := hbytes }

def planesOf (info : FrameInfo) : Nv12Layout where
  width := info.width
  height := info.height
  stride := info.stride
  uvOffset := info.height * info.stride
  totalSize := info.height * info.stride + info.height / 2 * info.stride

/-- The layout of a frame that is sane. -/
theorem nv12Layout_of_sane {info : FrameInfo} (h : Sane info) :
    nv12Layout (toInt info.width) (toInt info.height) (toInt info.stride) = planesOf info := by
  obtain ⟨hwidth, hweven, hstride, hheight, hheven, hwmax, hhmax, -, hplanes, hbytes⟩ := h
  have hone : info.stride ≤ info.height * info.stride := Nat.le_mul_of_pos_left _ hheight
  have hslot : kRingSlotBytes < 2 ^ 31 := by decide
  have hw : kRingMaxWidth < 2 ^ 31 := by decide
  have hh : kRingMaxHeight < 2 ^ 31 := by decide
  rw [toInt_of_lt (by omega), toInt_of_lt (by omega), toInt_of_lt (by omega), nv12Layout,
    if_neg (by omega)]
  dsimp only
  rw [if_pos (by omega)]
  simp only [Int.toNat_natCast]
  have hweven' : info.width / 2 * 2 = info.width := by omega
  have hheven' : info.height / 2 * 2 = info.height := by omega
  rw [hweven', hheven', half_plane _ hheven, Nat.mul_comm, planesOf]

/-! ### The frame that was read -/

theorem readSlot_some {ring : RingHeader} {seq capacity : ℕ} {hr : HResult} {info : FrameInfo}
    {bytes : List UInt8} (h : ring.readSlot seq capacity = some (hr, some (info, bytes))) :
    geometryIsSane info = true := by
  unfold RingHeader.readSlot at h
  dsimp only at h
  split_ifs at h with hodd hbytes hcapacity hsane
  · cases h
  · cases h
  · obtain ⟨-, hpair⟩ := Prod.mk.inj (Option.some.inj h)
    obtain ⟨rfl, -⟩ := Prod.mk.inj (Option.some.inj hpair)
    simpa using hsane

/-- **Whatever the section holds, a frame that is returned is sane.** -/
theorem sane_of_readLatest {capacity : ℕ} {dst scratch : ℕ → UInt8} {looks : Fin 8 → Look}
    {info : FrameInfo} (h : readLatest capacity dst looks = (.sOk, some info, scratch)) :
    Sane info := by
  unfold readLatest at h
  generalize List.ofFn looks = looks at h
  induction looks generalizing dst with
  | nil => cases h
  | cons look looks ih =>
    rw [readAttempts] at h
    by_cases hseq : look.seq = 0
    · rw [if_pos hseq] at h
      cases h
    · rw [if_neg hseq] at h
      split at h
      · exact ih h
      · next candidate bytes hread =>
        dsimp only at h
        split_ifs at h with hafter
        · exact ih h
        · obtain ⟨-, hpair⟩ := Prod.mk.inj h
          obtain rfl := Option.some.inj (Prod.mk.inj hpair).1
          exact sane_of_geometryIsSane (readSlot_some hread)
      · cases h

/-! ### The stores -/

section Rows
variable {dst src dstStride srcStride rows : ℕ} {padding : UInt8}

theorem covers_copyRow (r : ℕ) :
    Covers (memcpy (dst + r * dstStride) (src + r * srcStride) (min srcStride dstStride) ++
      if min srcStride dstStride < dstStride then
        memset (dst + r * dstStride + min srcStride dstStride) padding
          (dstStride - min srcStride dstStride)
      else [])
      (Set.Ico (dst + r * dstStride) (dst + r * dstStride + dstStride)) := by
  have hmin : min srcStride dstStride ≤ dstStride := min_le_right _ _
  have hcopy := covers_memcpy (α := UInt8) (dst + r * dstStride) (src + r * srcStride)
    (min srcStride dstStride)
  split_ifs with hpadded
  · have hset := covers_memset (dst + r * dstStride + min srcStride dstStride) padding
      (dstStride - min srcStride dstStride)
    have hend : dst + r * dstStride + min srcStride dstStride +
        (dstStride - min srcStride dstStride) = dst + r * dstStride + dstStride := by omega
    rw [hend] at hset
    exact covers_adjacent hcopy hset (by omega) (by omega)
  · have hfull : min srcStride dstStride = dstStride := by omega
    rw [List.append_nil]
    rwa [hfull] at hcopy ⊢

/-- Every byte of the plane is written once, the padding too. -/
theorem covers_copyRows :
    Covers (copyRows dst src dstStride srcStride rows padding)
      (plane dst dstStride rows dstStride) :=
  covers_plane le_rfl fun r _ => covers_copyRow r

theorem reads_copyRows {st : Store UInt8} {i : ℕ}
    (hst : st ∈ copyRows dst src dstStride srcStride rows padding) (hi : i ∈ st.reads) :
    i < src + rows * srcStride := by
  obtain ⟨r, hr, hst⟩ := List.mem_flatMap.mp hst
  rcases List.mem_append.mp hst with hst | hst
  · have hread := reads_memcpy hst hi
    have hrow := row_end srcStride (List.mem_range.mp hr)
    omega
  · split_ifs at hst
    · rw [reads_memset hst] at hi
      cases hi
    · cases hst

theorem exists_copyRows (dst src : ℕ) (padding : UInt8) {r c : ℕ} (hr : r < rows)
    (hc : c < min srcStride dstStride) :
    ∃ st ∈ copyRows dst src dstStride srcStride rows padding,
      st.address = dst + r * dstStride + c ∧ ∀ m, st.value m = m (src + r * srcStride + c) := by
  obtain ⟨st, hst, haddress, hvalue⟩ :=
    exists_memcpy (α := UInt8) (dst + r * dstStride) (src + r * srcStride) hc
  exact ⟨st, List.mem_flatMap.mpr ⟨r, List.mem_range.mpr hr, List.mem_append_left _ hst⟩,
    haddress, hvalue⟩

end Rows

section Planes
variable {src layout : Nv12Layout}

/-- Every byte of the destination is written once. -/
theorem covers_copyPlanes (h : layout.Sound) :
    Covers (copyPlanes src layout)
      (plane 0 layout.stride layout.height layout.stride ∪
        plane layout.uvOffset layout.stride (layout.height / 2) layout.stride) := by
  refine covers_append covers_copyRows covers_copyRows (planes_disjoint le_rfl le_rfl ?_)
  rw [h.uvOffset, Nat.zero_add]

theorem address_copyPlanes (h : layout.Sound) {st : Store UInt8}
    (hst : st ∈ copyPlanes src layout) : st.address < layout.totalSize := by
  have huv := h.uvOffset
  have htotal := h.totalSize
  rcases (covers_copyPlanes h).address_mem hst with hplane | hplane
  · have hbelow := (plane_below le_rfl hplane).2
    omega
  · have hbelow := (plane_below le_rfl hplane).2
    omega

end Planes

/-- Publishing the geometry leaves the rest as it is. -/
theorem publishGeometry_eq (fs : FrameSource) (layout : Nv12Layout) (requested : Bool) :
    (fs.publishGeometry layout requested).ringReady = fs.ringReady ∧
      (fs.publishGeometry layout requested).scratch = fs.scratch := by
  unfold FrameSource.publishGeometry
  split_ifs <;> exact ⟨rfl, rfl⟩

/-! ### Every frame -/

theorem fillLive_of_read {fs : FrameSource} {answers : Answers} {layout : Nv12Layout}
    {info : FrameInfo} {scratch : ℕ → UInt8} (hready : fs.ringReady = true)
    (hfresh : answers.millisSinceLastWrite ≤ kStaleAfterMillis)
    (hread : readLatest kRingSlotBytes fs.scratch answers.looks = (.sOk, some info, scratch))
    (hwidth : info.width = layout.width) (hheight : info.height = layout.height) :
    (fs.fillLive answers layout).2 = some (copyPlanes (planesOf info) layout) := by
  have hsane := sane_of_readLatest hread
  rw [← nv12Layout_of_sane hsane, FrameSource.fillLive, if_pos ⟨hready, hfresh⟩, hread]
  dsimp only
  rw [if_pos ⟨hwidth, hheight, hsane.format⟩]

/-- **A frame that was read is copied as it is**, from its own bytes into the buffer. -/
theorem fill_of_read (renderPattern : Nv12Layout → ℕ → List (Store UInt8)) (fs : FrameSource)
    (answers : Answers) (width height stride : ℤ) (frameIndex : ℕ) (info : FrameInfo)
    (scratch : ℕ → UInt8) (hready : fs.ringReady = true)
    (hfresh : answers.millisSinceLastWrite ≤ kStaleAfterMillis)
    (hread : readLatest kRingSlotBytes fs.scratch answers.looks = (.sOk, some info, scratch))
    (hwidth : info.width = (nv12Layout width height stride).width)
    (hheight : info.height = (nv12Layout width height stride).height)
    (hstride : (nv12Layout width height stride).width ≤ (nv12Layout width height stride).stride) :
    let layout := nv12Layout width height stride
    let filled := fs.fill renderPattern answers layout frameIndex
    filled.live = true ∧ (∀ st ∈ filled.stores, ∀ i ∈ st.reads, i < info.bytesUsed) ∧
      (∀ st ∈ filled.stores, st.address < layout.totalSize) ∧
      (∀ dst, ∀ row < layout.height, ∀ column < layout.width,
        exec scratch filled.stores dst (row * layout.stride + column) =
          scratch (row * info.stride + column)) ∧
      ∀ dst, ∀ row < layout.height / 2, ∀ column < layout.width,
        exec scratch filled.stores dst (layout.uvOffset + row * layout.stride + column) =
          scratch (info.height * info.stride + row * info.stride + column) := by
  intro layout filled
  have hsane := sane_of_readLatest hread
  have hsound : layout.Sound := nv12Layout_sound width height stride
  obtain ⟨hready', hscratch⟩ := publishGeometry_eq fs layout answers.requested
  have hlive := fillLive_of_read (hready'.trans hready) hfresh (by rw [hscratch]; exact hread)
    hwidth hheight
  have hfilled : filled.live = true ∧ filled.stores = copyPlanes (planesOf info) layout := by
    constructor
    · show (FrameSource.fillLive _ _ _).2.isSome = true
      rw [hlive]
      rfl
    · show (FrameSource.fillLive _ _ _).2.getD _ = _
      rw [hlive]
      rfl
  obtain ⟨hlive, hstores⟩ := hfilled
  have hvisible {column : ℕ} (h : column < layout.width) :
      column < min info.stride layout.stride := by
    have hinfo : column < info.width := h.trans_eq hwidth.symm
    exact lt_min (hinfo.trans_le hsane.width_le) (h.trans_le hstride)
  rw [hstores]
  refine ⟨hlive, fun st hst i hi => ?_, fun st => address_copyPlanes hsound,
    fun dst row hrow column hcolumn => ?_, fun dst row hrow column hcolumn => ?_⟩
  · refine lt_of_lt_of_le ?_ hsane.planes
    rcases List.mem_append.mp hst with hst | hst
    · have hlt : i < 0 + layout.height * info.stride := reads_copyRows hst hi
      rw [← hheight] at hlt
      omega
    · have hlt : i < info.height * info.stride + layout.height / 2 * info.stride :=
        reads_copyRows hst hi
      rwa [← hheight] at hlt
  · obtain ⟨st, hst, haddress, hvalue⟩ := exists_copyRows 0 0 16 hrow (hvisible hcolumn)
    have hmem : st ∈ copyPlanes (planesOf info) layout := List.mem_append_left _ hst
    rw [(covers_copyPlanes hsound).exec_of_mem hmem (by omega), hvalue, Nat.zero_add]
  · obtain ⟨st, hst, haddress, hvalue⟩ := exists_copyRows layout.uvOffset
      (info.height * info.stride) 128 hrow (hvisible hcolumn)
    have hmem : st ∈ copyPlanes (planesOf info) layout := List.mem_append_right _ hst
    rw [(covers_copyPlanes hsound).exec_of_mem hmem haddress, hvalue]

/-- One frame of 2x2 pixels in the first slot, with a stride of 4. -/
def published : RingHeader :=
  { RingHeader.initialized with
    writeSeq := 1
    format := kFourccNv12
    slots := fun _ =>
      { slotSeq := 2
        slotBytesUsed := 12
        slotWidth := 2
        slotHeight := 2
        slotStride := 4
        pixels := [1, 2, 0, 0, 3, 4, 0, 0, 5, 6, 0, 0] } }

theorem fill_of_read_published :
    let fs : FrameSource := { ringReady := true }
    let answers : Answers :=
      { requested := true, millisSinceLastWrite := 33, looks := fun _ => ⟨1, published, 2⟩ }
    let filled := fs.fill (fun _ _ => []) answers (nv12Layout 2 2 3) 0
    filled.live = true ∧ ∀ st ∈ filled.stores, st.address < 9 :=
  have h := fill_of_read (fun _ _ => []) { ringReady := true }
    { requested := true, millisSinceLastWrite := 33, looks := fun _ => ⟨1, published, 2⟩ } 2 2 3 0
    { width := 2, height := 2, stride := 4, writeSeq := 1, bytesUsed := 12 } _ rfl (by decide)
    rfl rfl rfl (by decide)
  ⟨h.1, h.2.2.1⟩

end RemoteCam.Ring.Fill
