import Mathlib.Data.List.GetD
import RemoteCam.Media.StudioRange
import RemoteCam.Ring.Fill

/-! # From a mapped texture to NV12

The rows that the worker of `FrameRingSink` copies out of a mapped staging texture, and what
`bgraToNv12` then leaves in its vector. The vectors are used again from frame to frame.

`convert_packRows`: whatever the vectors held and however far apart the rows are, the bytes are
those of the picture, a luma byte for each pixel and the two chroma bytes of each block of four. -/

namespace RemoteCam.Media.Picture

open RemoteCam.Lib.Stores RemoteCam.Media.PixelConvert

/-! ### Vectors -/

def memory (bytes : List UInt8) (i : ℕ) : UInt8 := bytes.getD i 0

/-- `std::vector::resize`. -/
def resize (bytes : List UInt8) (n : ℕ) : List UInt8 :=
  bytes.take n ++ List.replicate (n - bytes.length) 0

/-- The vector after the stores, with `m` to read from. -/
def store (m : ℕ → UInt8) (stores : List (Store UInt8)) (bytes : List UInt8) : List UInt8 :=
  (List.range bytes.length).map (exec m stores (memory bytes))

/-! ### What the worker does with a frame -/

/-- `D3D11_MAPPED_SUBRESOURCE`. -/
structure Mapped where
  data : ℕ → UInt8
  RowPitch : ℕ

/-- The rows, without the padding between them. -/
def packRows (bgra : List UInt8) (mapped : Mapped) (width height : ℕ) : List UInt8 :=
  let packedStride := width * 4
  let rows := (List.range height).flatMap fun row =>
    memcpy (row * packedStride) (row * mapped.RowPitch) packedStride
  store mapped.data rows (resize bgra (packedStride * height))

/-- The arguments of `bgraToNv12`; `data()` of a vector that is not empty is not null. -/
def conversion (pixels : List UInt8) (stride width height : ℕ) (nv12 : List UInt8)
    (nv12Stride : ℕ) : Args where
  bgra := !pixels.isEmpty
  bgraBytes := .ofNat pixels.length
  bgraStride := .ofNat stride
  width := .ofNat width
  height := .ofNat height
  nv12 := !nv12.isEmpty
  nv12Bytes := .ofNat nv12.length
  nv12Stride := .ofNat nv12Stride

def convert (pixels : List UInt8) (stride width height : ℕ) (nv12 : List UInt8)
    (nv12Stride : ℕ) : Result × List UInt8 :=
  let (result, stores) := bgraToNv12 (conversion pixels stride width height nv12 nv12Stride)
  (result, store (memory pixels) stores nv12)

/-! ### Pictures -/

/-- Blue, green, red and alpha by row and column. -/
abbrev Texels := ℕ → ℕ → ℕ → UInt8

/-- The mapped texture holds the picture. -/
def Mapped.Shows (mapped : Mapped) (texels : Texels) (width height : ℕ) : Prop :=
  ∀ row < height, ∀ column < width, ∀ k < 4,
    mapped.data (row * mapped.RowPitch + (column * 4 + k)) = texels row column k

instance (mapped : Mapped) (texels : Texels) (width height : ℕ) :
    Decidable (mapped.Shows texels width height) :=
  inferInstanceAs (Decidable (∀ row < height, ∀ column < width, ∀ k < 4, _))

namespace Texels

/-- The pixels one after the other, by rows. -/
def bgra (texels : Texels) (width height : ℕ) : List UInt8 :=
  (List.range height).flatMap fun row => (List.range width).flatMap fun column =>
    (List.range 4).map fun k => texels row column k

/-- The rounded average of the four pixels of a block. -/
def average (texels : Texels) (row column k : ℕ) : ℤ :=
  ((texels (row * 2) (column * 2) k).toNat + (texels (row * 2) (column * 2 + 1) k).toNat +
    (texels (row * 2 + 1) (column * 2) k).toNat +
    (texels (row * 2 + 1) (column * 2 + 1) k).toNat + 2) / 4

def lumaPlane (texels : Texels) (width height : ℕ) : List UInt8 :=
  (List.range height).flatMap fun row => (List.range width).map fun column =>
    luma (texels row column 0) (texels row column 1) (texels row column 2)

/-- The two bytes of a block. -/
def chroma (texels : Texels) (row column : ℕ) : List UInt8 :=
  let blue := texels.average row column 0
  let green := texels.average row column 1
  let red := texels.average row column 2
  [chromaU blue green red, chromaV blue green red]

def chromaPlane (texels : Texels) (width height : ℕ) : List UInt8 :=
  (List.range (height / 2)).flatMap fun row =>
    (List.range (width / 2)).flatMap fun column => texels.chroma row column

/-- The planes of NV12 without padding. -/
def nv12 (texels : Texels) (width height : ℕ) : List UInt8 :=
  texels.lumaPlane width height ++ texels.chromaPlane width height

end Texels

/-! ### Rows one after the other -/

section
variable {rows cols : ℕ}

/-- Rows of the same length without gaps. -/
theorem flatMap_range {f : ℕ → List ℕ} {base : ℕ}
    (h : ∀ row < rows, f row = (List.range cols).map fun column => base + row * cols + column) :
    (List.range rows).flatMap f = (List.range (rows * cols)).map (base + ·) := by
  induction rows with
  | zero => rw [Nat.zero_mul]; rfl
  | succ rows ih =>
    have hlast := h rows (Nat.lt_succ_self rows)
    have hbefore := ih fun row hrow => h row (Nat.lt_succ_of_lt hrow)
    rw [List.range_succ, List.flatMap_append, hbefore, List.flatMap_singleton, hlast,
      Nat.add_mul, Nat.one_mul, List.range_add, List.map_append, List.map_map]
    congr 1
    exact List.map_congr_left fun column _ => Nat.add_assoc base (rows * cols) column

theorem length_flatMap_range {α : Type*} {f : ℕ → List α}
    (h : ∀ row < rows, (f row).length = cols) :
    ((List.range rows).flatMap f).length = rows * cols := by
  rw [List.length_flatMap, List.map_congr_left fun row hrow => h row (List.mem_range.mp hrow),
    List.map_const', List.sum_replicate_nat, List.length_range]

/-- What stands in a column of a row. -/
theorem getD_flatMap_range {f : ℕ → List UInt8} (h : ∀ row < rows, (f row).length = cols)
    {row column : ℕ} (hrow : row < rows) (hcolumn : column < cols) :
    ((List.range rows).flatMap f).getD (row * cols + column) 0 = (f row).getD column 0 := by
  induction rows with
  | zero => exact absurd hrow (Nat.not_lt_zero row)
  | succ rows ih =>
    have hbefore : ∀ row < rows, (f row).length = cols := fun row hrow =>
      h row (Nat.lt_succ_of_lt hrow)
    have hlength := length_flatMap_range hbefore
    rw [List.range_succ, List.flatMap_append, List.flatMap_singleton]
    rcases Nat.lt_succ_iff_lt_or_eq.mp hrow with hlt | rfl
    · have hend := row_end cols hlt
      rw [List.getD_append _ _ _ _ (by omega)]
      exact ih hbefore hlt
    · rw [List.getD_append_right _ _ _ _ (by omega), hlength, Nat.add_sub_cancel_left]

end

theorem length_resize (bytes : List UInt8) (n : ℕ) : (resize bytes n).length = n := by
  rw [resize, List.length_append, List.length_take, List.length_replicate]
  omega

theorem store_eq {m : ℕ → UInt8} {stores : List (Store UInt8)} {bytes : List UInt8}
    (h : addresses stores = List.range bytes.length) :
    store m stores bytes = stores.map fun st => st.value m :=
  map_exec_range h

/-! ### The rows of the texture -/

section
variable {texels : Texels} {width height : ℕ}

theorem length_pixel (texels : Texels) (row column : ℕ) :
    ((List.range 4).map fun k => texels row column k).length = 4 := rfl

theorem length_row (texels : Texels) (width row : ℕ) :
    ((List.range width).flatMap fun column =>
      (List.range 4).map fun k => texels row column k).length = width * 4 :=
  length_flatMap_range fun column _ => length_pixel texels row column

theorem length_bgra (texels : Texels) (width height : ℕ) :
    (texels.bgra width height).length = height * (width * 4) :=
  length_flatMap_range fun row _ => length_row texels width row

theorem length_lumaPlane (texels : Texels) (width height : ℕ) :
    (texels.lumaPlane width height).length = height * width :=
  length_flatMap_range fun _ _ => by rw [List.length_map, List.length_range]

theorem length_chroma_row (texels : Texels) (hwidth : width % 2 = 0) (row : ℕ) :
    ((List.range (width / 2)).flatMap fun column => texels.chroma row column).length = width := by
  have hpairs := @length_flatMap_range (width / 2) 2 UInt8 (fun column => texels.chroma row column)
    fun _ _ => rfl
  rwa [Nat.div_mul_cancel (Nat.dvd_of_mod_eq_zero hwidth)] at hpairs

theorem length_chromaPlane (texels : Texels) (hwidth : width % 2 = 0) (height : ℕ) :
    (texels.chromaPlane width height).length = height / 2 * width :=
  length_flatMap_range fun row _ => length_chroma_row texels hwidth row

theorem length_nv12 (texels : Texels) (hwidth : width % 2 = 0) (height : ℕ) :
    (texels.nv12 width height).length = height * width + height / 2 * width := by
  rw [Texels.nv12, List.length_append, length_lumaPlane, length_chromaPlane texels hwidth]

/-- A component of a pixel in the packed rows. -/
theorem memory_bgra {row column k : ℕ} (hrow : row < height) (hcolumn : column < width)
    (hk : k < 4) :
    memory (texels.bgra width height) (row * (width * 4) + (column * 4 + k)) =
      texels row column k := by
  have hin : column * 4 + k < width * 4 := by omega
  rw [memory, Texels.bgra, getD_flatMap_range (fun row _ => length_row texels width row) hrow hin,
    getD_flatMap_range (fun column _ => length_pixel texels row column) hcolumn hk,
    List.getD_eq_getElem _ _ (by simpa using hk), List.getElem_map, List.getElem_range]

/-- A row is copied as it stands in the picture. -/
theorem map_memcpy {mapped : Mapped} (h : mapped.Shows texels width height) {row : ℕ}
    (hrow : row < height) (d : ℕ) :
    ((memcpy d (row * mapped.RowPitch) (width * 4) : List (Store UInt8)).map
        fun st => st.value mapped.data) =
      (List.range width).flatMap fun column =>
        (List.range 4).map fun k => texels row column k := by
  have hblocks : (List.range (width * 4)).map (0 + ·) =
      (List.range width).flatMap fun column => (List.range 4).map fun k => column * 4 + k :=
    (flatMap_range fun column _ => by simp only [Nat.zero_add]).symm
  have hall : List.range (width * 4) =
      (List.range width).flatMap fun column => (List.range 4).map fun k => column * 4 + k := by
    rw [← hblocks]
    simp only [Nat.zero_add, List.map_id']
  rw [memcpy, List.map_map, hall, List.map_flatMap]
  refine List.flatMap_congr fun column hcolumn => ?_
  rw [List.map_map]
  refine List.map_congr_left fun k hk => ?_
  exact h row hrow column (List.mem_range.mp hcolumn) k (List.mem_range.mp hk)

/-- **The copied rows are the picture**, whatever the vector held and however far apart the rows
are in the texture. -/
theorem packRows_eq {mapped : Mapped} (h : mapped.Shows texels width height) (bgra : List UInt8) :
    packRows bgra mapped width height = texels.bgra width height := by
  have hrow (row : ℕ) : (memcpy (row * (width * 4)) (row * mapped.RowPitch) (width * 4) :
      List (Store UInt8)).map Store.address =
        (List.range (width * 4)).map fun column => 0 + row * (width * 4) + column := by
    rw [memcpy, List.map_map, Nat.zero_add]
    rfl
  have haddresses : addresses ((List.range height).flatMap fun row =>
      (memcpy (row * (width * 4)) (row * mapped.RowPitch) (width * 4) : List (Store UInt8))) =
      List.range (height * (width * 4)) := by
    rw [addresses, List.map_flatMap, flatMap_range fun row _ => hrow row]
    simp only [Nat.zero_add, List.map_id']
  rw [packRows, store_eq (by rw [haddresses, length_resize, Nat.mul_comm]), List.map_flatMap]
  exact List.flatMap_congr fun row hrow => map_memcpy h (List.mem_range.mp hrow) _

end

/-! ### The conversion -/

/-- The sizes of a frame that `supportedFrame` lets through. -/
structure Supported (width height : ℕ) : Prop where
  width_pos : 0 < width
  height_pos : 0 < height
  width_even : width % 2 = 0
  height_even : height % 2 = 0
  width_le : width ≤ 3840
  height_le : height ≤ 2160

section
variable {texels : Texels} {width height : ℕ} {pixels nv12 : List UInt8}

theorem Supported.product_le (h : Supported width height) : height * width ≤ 8294400 :=
  Nat.mul_le_mul h.height_le h.width_le

/-- There are two chroma bytes for four pixels. -/
theorem half_product_le (width height : ℕ) : height / 2 * width * 2 ≤ height * width := by
  rw [Nat.mul_right_comm]
  exact Nat.mul_le_mul_right width (Nat.div_mul_le_self height 2)

/-- The numbers of the arguments, for vectors without padding. -/
structure Packed (a : Args) (width height : ℕ) : Prop where
  toNat_width : a.width.toNat = width
  toNat_height : a.height.toNat = height
  bgraStride : a.bgraStride.toNat = width * 4
  nv12Stride : a.nv12Stride.toNat = width
  bgraBytes : a.bgraBytes.toNat = height * (width * 4)
  nv12Bytes : a.nv12Bytes.toNat = height * width + height / 2 * width

theorem Supported.packed (h : Supported width height)
    (hpixels : pixels.length = height * (width * 4))
    (hnv12 : nv12.length = height * width + height / 2 * width) :
    Packed (conversion pixels (width * 4) width height nv12 width) width height := by
  have hwidth := h.width_le
  have hheight := h.height_le
  have hproduct := h.product_le
  have hhalf := half_product_le width height
  have hbytes : height * (width * 4) = height * width * 4 := (Nat.mul_assoc ..).symm
  refine ⟨UInt32.toNat_ofNat_of_lt' ?_, UInt32.toNat_ofNat_of_lt' ?_, UInt32.toNat_ofNat_of_lt' ?_,
    UInt32.toNat_ofNat_of_lt' ?_, (UInt64.toNat_ofNat_of_lt' ?_).trans hpixels,
    (UInt64.toNat_ofNat_of_lt' ?_).trans hnv12⟩
  all_goals
    simp only [UInt32.size, UInt64.size]
    omega

theorem and_one_of_even {x : UInt32} (h : x.toNat % 2 = 0) : x &&& 1 = 0 := by
  refine UInt32.toNat_inj.mp ?_
  rw [UInt32.toNat_and]
  exact (Nat.and_one_is_mod _).trans h

section Packed
variable {a : Args}

/-- The products and the sum of `bgraToNv12` do not overflow. -/
theorem Packed.exists_sizes (h : Packed a width height) (hframe : Supported width height) :
    ∃ s, sizes a = some s := by
  have hproduct := hframe.product_le
  have hhalf := half_product_le width height
  rw [sizes_eq (requiredBytes_eq _ _) (requiredBytes_eq _ _) (requiredBytes_eq _ _)]
  refine ⟨_, if_neg fun hgt => ?_⟩
  have hlt := UInt64.lt_iff_toNat_lt.mp hgt
  rw [UInt64.toNat_sub_of_le _ _ (UInt64.le_iff_toNat_le.mpr (Nat.le_pred_of_lt
    (UInt64.toNat_lt _))), toNat_sizeMax, toNat_product, toNat_product, UInt32.toNat_div,
    h.nv12Stride, h.toNat_height, Nat.mul_comm width, Nat.mul_comm width] at hlt
  change 2 ^ 64 - 1 - height / 2 * width < height * width at hlt
  omega

theorem Packed.shape (h : Packed a width height) (hframe : Supported width height) :
    ¬ (a.width = 0 ∨ a.height = 0 ∨ a.width &&& 1 ≠ 0 ∨ a.height &&& 1 ≠ 0) := by
  have hwidth := h.toNat_width
  have hheight := h.toNat_height
  rw [and_one_of_even (hwidth ▸ hframe.width_even), and_one_of_even (hheight ▸ hframe.height_even)]
  rintro (hzero | hzero | hodd | hodd)
  · rw [hzero] at hwidth
    exact hframe.width_pos.ne hwidth
  · rw [hzero] at hheight
    exact hframe.height_pos.ne hheight
  · exact hodd rfl
  · exact hodd rfl

theorem Packed.strides (h : Packed a width height) (hframe : Supported width height) :
    ¬ (a.width > uint32Max / 4 ∨ a.bgraStride < a.width * 4 ∨ a.nv12Stride < a.width) := by
  have hwidth := h.toNat_width
  have hwidth_le := hframe.width_le
  have hmax : ¬ a.width > uint32Max / 4 := by
    refine UInt32.not_lt.mpr (UInt32.le_iff_toNat_le.mpr ?_)
    show a.width.toNat ≤ 1073741823
    omega
  rintro (hgt | hlt | hlt)
  · exact hmax hgt
  · have hlt := UInt32.lt_iff_toNat_lt.mp hlt
    rw [toNat_minStride hmax, h.bgraStride] at hlt
    omega
  · have hlt := UInt32.lt_iff_toNat_lt.mp hlt
    rw [h.nv12Stride] at hlt
    omega

/-- The vectors have exactly the bytes that are asked for. -/
theorem Packed.buffers (h : Packed a width height) {s : Sizes} (hsizes : sizes a = some s) :
    ¬ (a.bgraBytes < s.requiredBgra ∨ a.nv12Bytes < s.yBytes + s.uvBytes) := by
  obtain ⟨hrequired, hy, huv, htotal⟩ := exact_of_sizes hsizes
  rintro (hlt | hlt)
  · have hlt := UInt64.lt_iff_toNat_lt.mp hlt
    rw [hrequired, h.bgraBytes, h.bgraStride, h.toNat_height, Nat.mul_comm height] at hlt
    exact lt_irrefl _ hlt
  · have hlt := UInt64.lt_iff_toNat_lt.mp hlt
    rw [htotal, hy, huv, h.nv12Bytes, h.nv12Stride, h.toNat_height, Nat.mul_comm width,
      Nat.mul_comm width] at hlt
    exact lt_irrefl _ hlt

end Packed

/-- The checks of `bgraToNv12` let the two vectors of the worker through. -/
theorem Supported.check_conversion (h : Supported width height)
    (hpixels : pixels.length = height * (width * 4))
    (hnv12 : nv12.length = height * width + height / 2 * width) :
    ∃ s, check (conversion pixels (width * 4) width height nv12 width) = .ok s := by
  have hpos : 0 < height * width := Nat.mul_pos h.height_pos h.width_pos
  have hpacked := h.packed hpixels hnv12
  have hbgra : (conversion pixels (width * 4) width height nv12 width).bgra = true := by
    cases pixels with
    | nil => exact absurd hpixels (by rw [List.length_nil, ← Nat.mul_assoc]; omega)
    | cons b bytes => rfl
  have hvector : (conversion pixels (width * 4) width height nv12 width).nv12 = true := by
    cases nv12 with
    | nil => exact absurd hnv12 (by rw [List.length_nil]; omega)
    | cons b bytes => rfl
  obtain ⟨s, hsizes⟩ := hpacked.exists_sizes h
  refine ⟨s, ?_⟩
  rw [check, hbgra, hvector, if_neg (by decide), if_neg (hpacked.shape h),
    if_neg (hpacked.strides h), hsizes]
  exact if_neg (hpacked.buffers hsizes)

/-- A store of the luma plane reads its pixel. -/
theorem value_lumaStore {row column : ℕ} (hrow : row < height) (hcolumn : column < width)
    (address : ℕ) :
    (lumaStore (row * (width * 4) + column * 4) address).value
        (memory (texels.bgra width height)) =
      luma (texels row column 0) (texels row column 1) (texels row column 2) := by
  have hcomponent {k : ℕ} (hk : k < 4) := @memory_bgra texels width height row column k hrow
    hcolumn hk
  show luma (memory _ (row * (width * 4) + column * 4)) (memory _ (_ + 1)) (memory _ (_ + 2)) = _
  rw [Nat.add_assoc, Nat.add_assoc, hcomponent (by decide : 1 < 4), hcomponent (by decide : 2 < 4)]
  congr 1
  exact hcomponent (by decide : 0 < 4)

/-- The average of a component of a block, as the loop reads it. -/
theorem average_memory {row column k : ℕ} (hrow : row < height / 2) (hcolumn : column < width / 2)
    (hk : k < 4) :
    let p0 := row * 2 * (width * 4) + column * 2 * 4
    let p2 := row * 2 * (width * 4) + width * 4 + column * 2 * 4
    average (memory (texels.bgra width height)) (p0 + k) (p0 + 4 + k) (p2 + k) (p2 + 4 + k) =
      texels.average row column k := by
  intro p0 p2
  have hfirst : row * 2 < height := by omega
  have hsecond : row * 2 + 1 < height := by omega
  have hleft : column * 2 < width := by omega
  have hright : column * 2 + 1 < width := by omega
  have hnext : (row * 2 + 1) * (width * 4) = row * 2 * (width * 4) + width * 4 := by
    rw [Nat.add_mul, Nat.one_mul]
  have h0 : p0 + k = row * 2 * (width * 4) + (column * 2 * 4 + k) := Nat.add_assoc ..
  have h1 : p0 + 4 + k = row * 2 * (width * 4) + ((column * 2 + 1) * 4 + k) := by
    simp only [p0]
    omega
  have h2 : p2 + k = (row * 2 + 1) * (width * 4) + (column * 2 * 4 + k) := by
    simp only [p2, hnext]
    omega
  have h3 : p2 + 4 + k = (row * 2 + 1) * (width * 4) + ((column * 2 + 1) * 4 + k) := by
    simp only [p2, hnext]
    omega
  rw [average, h0, h1, h2, h3, memory_bgra hfirst hleft hk, memory_bgra hfirst hright hk,
    memory_bgra hsecond hleft hk, memory_bgra hsecond hright hk]
  rfl

/-- The two stores of a block read its four pixels. -/
theorem value_chromaStore (chroma : ℤ → ℤ → ℤ → UInt8) {row column : ℕ} (hrow : row < height / 2)
    (hcolumn : column < width / 2) (address : ℕ) :
    (chromaStore chroma (row * 2 * (width * 4) + column * 2 * 4)
        (row * 2 * (width * 4) + width * 4 + column * 2 * 4) address).value
        (memory (texels.bgra width height)) =
      chroma (texels.average row column 0) (texels.average row column 1)
        (texels.average row column 2) := by
  have hblue := @average_memory texels width height row column 0 hrow hcolumn (by decide)
  have hgreen := @average_memory texels width height row column 1 hrow hcolumn (by decide)
  have hred := @average_memory texels width height row column 2 hrow hcolumn (by decide)
  rw [← hblue, ← hgreen, ← hred]
  rfl

section
variable {a : Args} (h : Packed a width height)
include h

theorem Packed.addresses_lumaStores :
    addresses (lumaStores a) = List.range (height * width) := by
  rw [lumaStores_eq, h.toNat_width, h.toNat_height, h.nv12Stride, addresses, List.map_flatMap,
    @flatMap_range height width _ 0 fun row _ => ?_]
  · simp only [Nat.zero_add, List.map_id']
  · rw [List.map_map, Nat.zero_add]
    rfl

theorem Packed.map_lumaStores (texels : Texels) :
    ((lumaStores a).map fun st => st.value (memory (texels.bgra width height))) =
      texels.lumaPlane width height := by
  rw [lumaStores_eq, h.toNat_width, h.toNat_height, h.bgraStride, List.map_flatMap]
  refine List.flatMap_congr fun row hrow => ?_
  rw [List.map_map]
  refine List.map_congr_left fun column hcolumn => ?_
  exact value_lumaStore (List.mem_range.mp hrow) (List.mem_range.mp hcolumn) _

variable (hwidth : width % 2 = 0) (hheight : height % 2 = 0)
include hwidth hheight

theorem Packed.addresses_chromaStores {yBytes : UInt64} (hy : yBytes.toNat = height * width) :
    addresses (chromaStores a yBytes) =
      (List.range (height / 2 * width)).map (height * width + ·) := by
  rw [chromaStores_eq a (h.toNat_width ▸ hwidth) (h.toNat_height ▸ hheight), h.toNat_width,
    h.toNat_height, hy, addresses, List.map_flatMap,
    @flatMap_range (height / 2) width _ (height * width) fun row _ => ?_]
  -- a row of blocks is a row of pairs
  have hpairs : (List.range width).map (height * width + row * width + ·) =
      (List.range (width / 2)).flatMap fun column =>
        (List.range 2).map fun k => height * width + row * width + column * 2 + k := by
    rw [flatMap_range fun column _ => rfl, Nat.div_mul_cancel (Nat.dvd_of_mod_eq_zero hwidth)]
  rw [hpairs, List.map_flatMap]
  refine List.flatMap_congr fun column _ => ?_
  simp only [block, chromaStore, h.nv12Stride, Nat.mul_div_cancel row two_pos, List.map_cons,
    List.map_nil, List.range_succ, List.range_zero, List.nil_append, List.cons_append,
    Nat.add_zero, Nat.add_assoc]

theorem Packed.map_chromaStores (texels : Texels) (yBytes : UInt64) :
    ((chromaStores a yBytes).map fun st => st.value (memory (texels.bgra width height))) =
      texels.chromaPlane width height := by
  rw [chromaStores_eq a (h.toNat_width ▸ hwidth) (h.toNat_height ▸ hheight), h.toNat_width,
    h.toNat_height, List.map_flatMap]
  refine List.flatMap_congr fun row hrow => ?_
  rw [List.map_flatMap]
  refine List.flatMap_congr fun column hcolumn => ?_
  have hvalue (chroma : ℤ → ℤ → ℤ → UInt8) (address : ℕ) := @value_chromaStore texels width height
    chroma row column (List.mem_range.mp hrow) (List.mem_range.mp hcolumn) address
  simp only [block, h.bgraStride, List.map_cons, List.map_nil, hvalue, Texels.chroma]

end

/-- **The NV12 bytes are those of the picture**, whatever the vector held before. -/
theorem Supported.convert_eq (h : Supported width height) (texels : Texels)
    (hnv12 : nv12.length = height * width + height / 2 * width) :
    convert (texels.bgra width height) (width * 4) width height nv12 width =
      (.sOk, texels.nv12 width height) := by
  obtain ⟨s, hcheck⟩ := h.check_conversion (length_bgra texels width height) hnv12
  have hpacked := h.packed (length_bgra texels width height) hnv12
  have hy := (accepted_of_check hcheck).1.yBytes
  rw [convert, bgraToNv12, hcheck]
  dsimp only
  generalize conversion (texels.bgra width height) (width * 4) width height nv12 width = a at *
  rw [hpacked.toNat_height, hpacked.nv12Stride] at hy
  have haddresses : addresses (lumaStores a ++ chromaStores a s.yBytes) =
      List.range nv12.length := by
    rw [hnv12, List.range_add, ← hpacked.addresses_lumaStores,
      ← hpacked.addresses_chromaStores h.width_even h.height_even hy]
    exact List.map_append
  rw [store_eq haddresses, List.map_append, hpacked.map_lumaStores,
    hpacked.map_chromaStores h.width_even h.height_even]
  rfl

end

end RemoteCam.Media.Picture
