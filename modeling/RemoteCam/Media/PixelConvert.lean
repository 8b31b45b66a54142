import Mathlib.Data.List.Range
import RemoteCam.Lib.Stores

/-! # BGRA to NV12

`bgraToNv12`, with the integers of its sizes and counters as they are: `uint32_t`, and a `size_t` of
64 bits. `footprint`: every call is turned down before its first store, or stays inside both buffers
and writes each visible byte once; and no size wraps on the way. -/

namespace RemoteCam.Media.PixelConvert

open RemoteCam.Lib.Stores

inductive Result where
  | sOk
  | pointer
  | invalidArg
  | insufficientBuffer
  deriving DecidableEq, Repr

/-! ### One pixel -/

def clampByte (value : ℤ) : UInt8 := UInt8.ofNat (max 0 (min value 255)).toNat

def luma (blue green red : UInt8) : UInt8 :=
  clampByte (16 + Int.shiftRight (16 * blue.toNat + 157 * green.toNat + 47 * red.toNat + 128) 8)

def divideRounded256 (value : ℤ) : ℤ :=
  if value ≥ 0 then (value + 128) / 256 else -((-value + 128) / 256)

def chromaU (blue green red : ℤ) : UInt8 :=
  clampByte (128 + divideRounded256 (113 * blue - 87 * green - 26 * red))

def chromaV (blue green red : ℤ) : UInt8 :=
  clampByte (128 + divideRounded256 (-10 * blue - 102 * green + 112 * red))

/-! ### Sizes -/

def uint32Max : UInt32 := 0xFFFFFFFF
def sizeMax : UInt64 := 0xFFFFFFFFFFFFFFFF

def requiredBytes (stride rows : UInt32) : Option UInt64 :=
  if rows ≠ 0 ∧ stride.toUInt64 > sizeMax / rows.toUInt64 then none
  else some (stride.toUInt64 * rows.toUInt64)

/-- The arguments. Of the pointers, whether they are not null. -/
structure Args where
  bgra : Bool
  bgraBytes : UInt64
  bgraStride : UInt32
  width : UInt32
  height : UInt32
  nv12 : Bool
  nv12Bytes : UInt64
  nv12Stride : UInt32
  deriving DecidableEq, Repr

structure Sizes where
  requiredBgra : UInt64
  yBytes : UInt64
  uvBytes : UInt64
  deriving DecidableEq, Repr

def sizes (a : Args) : Option Sizes :=
  match requiredBytes a.bgraStride a.height, requiredBytes a.nv12Stride a.height,
    requiredBytes a.nv12Stride (a.height / 2) with
  | some requiredBgra, some yBytes, some uvBytes =>
    if yBytes > sizeMax - uvBytes then none else some { requiredBgra, yBytes, uvBytes }
  | _, _, _ => none

/-- The checks before the first store. -/
def check (a : Args) : Except Result Sizes :=
  if !a.bgra || !a.nv12 then .error .pointer
  else if a.width = 0 ∨ a.height = 0 ∨ a.width &&& 1 ≠ 0 ∨ a.height &&& 1 ≠ 0 then
    .error .invalidArg
  else if a.width > uint32Max / 4 ∨ a.bgraStride < a.width * 4 ∨ a.nv12Stride < a.width then
    .error .invalidArg
  else
    match sizes a with
    | none => .error .invalidArg
    | some s =>
      if a.bgraBytes < s.requiredBgra ∨ a.nv12Bytes < s.yBytes + s.uvBytes then
        .error .insufficientBuffer
      else .ok s

/-! ### The loops -/

/-- The values of `for (uint32_t i = start; i < bound; i += step)`, for so many rounds. -/
def countFrom (step bound : UInt32) : ℕ → UInt32 → List UInt32
  | 0, _ => []
  | fuel + 1, i => if i < bound then i :: countFrom step bound fuel (i + step) else []

/-- `countFrom_eq` says that no further round follows. -/
def count (step bound : UInt32) : List UInt32 := countFrom step bound bound.toNat 0

def lumaStore (pixel address : ℕ) : Store UInt8 where
  address := address
  reads := [pixel, pixel + 1, pixel + 2]
  value m := luma (m pixel) (m (pixel + 1)) (m (pixel + 2))
  local_reads m m' h := by simp [h]

/-- One component of a block: its four pixels, averaged. -/
def average (m : ℕ → UInt8) (p0 p1 p2 p3 : ℕ) : ℤ :=
  ((m p0).toNat + (m p1).toNat + (m p2).toNat + (m p3).toNat + 2) / 4

/-- One of the two chroma bytes of the block with these pixels. -/
def chromaStore (chroma : ℤ → ℤ → ℤ → UInt8) (p0 p2 address : ℕ) : Store UInt8 where
  address := address
  reads := [p0, p0 + 1, p0 + 2, p0 + 4, p0 + 5, p0 + 6, p2, p2 + 1, p2 + 2, p2 + 4, p2 + 5, p2 + 6]
  value m :=
    let blue := average m p0 (p0 + 4) p2 (p2 + 4)
    let green := average m (p0 + 1) (p0 + 5) (p2 + 1) (p2 + 5)
    let red := average m (p0 + 2) (p0 + 6) (p2 + 2) (p2 + 6)
    chroma blue green red
  local_reads m m' h := by simp [average, h]

def lumaStores (a : Args) : List (Store UInt8) :=
  (count 1 a.height).flatMap fun row =>
    let source := row.toUInt64 * a.bgraStride.toUInt64
    let destination := row.toUInt64 * a.nv12Stride.toUInt64
    (count 1 a.width).map fun column =>
      lumaStore (source.toNat + (column.toUInt64 * 4).toNat) (destination.toNat + column.toNat)

def chromaStores (a : Args) (yBytes : UInt64) : List (Store UInt8) :=
  (count 2 a.height).flatMap fun row =>
    let first := row.toUInt64 * a.bgraStride.toUInt64
    let second := first.toNat + a.bgraStride.toNat
    let destination := yBytes.toNat + ((row / 2).toUInt64 * a.nv12Stride.toUInt64).toNat
    (count 2 a.width).flatMap fun column =>
      let p0 := first.toNat + (column.toUInt64 * 4).toNat
      let p2 := second + (column.toUInt64 * 4).toNat
      [chromaStore chromaU p0 p2 (destination + column.toNat),
        chromaStore chromaV p0 p2 (destination + (column + 1).toNat)]

def bgraToNv12 (a : Args) : Result × List (Store UInt8) :=
  match check a with
  | .error r => (r, [])
  | .ok s => (.sOk, lumaStores a ++ chromaStores a s.yBytes)

/-! ### Nothing wraps -/

theorem toNat_sizeMax : sizeMax.toNat = 2 ^ 64 - 1 := rfl

theorem product_lt (x y : UInt32) : x.toNat * y.toNat < 2 ^ 64 := by
  have hle : x.toNat * y.toNat ≤ (2 ^ 32 - 1) * (2 ^ 32 - 1) :=
    Nat.mul_le_mul (Nat.le_pred_of_lt x.toNat_lt) (Nat.le_pred_of_lt y.toNat_lt)
  omega

theorem toNat_product (x y : UInt32) : (x.toUInt64 * y.toUInt64).toNat = x.toNat * y.toNat := by
  rw [UInt64.toNat_mul, UInt32.toNat_toUInt64, UInt32.toNat_toUInt64]
  exact Nat.mod_eq_of_lt (product_lt x y)

theorem toNat_pixel (column : UInt32) : (column.toUInt64 * 4).toNat = column.toNat * 4 :=
  toNat_product column 4

/-- `size_t` has room for every product of a stride and a number of rows. -/
theorem requiredBytes_eq (stride rows : UInt32) :
    requiredBytes stride rows = some (stride.toUInt64 * rows.toUInt64) := by
  unfold requiredBytes
  refine if_neg fun h => ?_
  obtain ⟨hrows, hgt⟩ := h
  have hpos : 0 < rows.toNat := Nat.pos_of_ne_zero fun h => hrows (UInt32.toNat_inj.mp h)
  have hlt : (2 ^ 64 - 1) / rows.toNat < stride.toNat := by
    have hlt := UInt64.lt_iff_toNat_lt.mp hgt
    rwa [UInt64.toNat_div, UInt32.toNat_toUInt64, UInt32.toNat_toUInt64, toNat_sizeMax] at hlt
  have hle : stride.toNat ≤ (2 ^ 64 - 1) / rows.toNat :=
    (Nat.le_div_iff_mul_le hpos).mpr (Nat.le_pred_of_lt (product_lt stride rows))
  omega

/-- The values of a counter that reaches its bound. -/
theorem countFrom_eq {step bound : UInt32} {n : ℕ} (hstep : 0 < step.toNat)
    (hbound : bound.toNat = n * step.toNat) {fuel k : ℕ} {i : UInt32}
    (hi : i.toNat = k * step.toNat) (hk : k ≤ n) (hfuel : n - k ≤ fuel) :
    (countFrom step bound fuel i).map UInt32.toNat =
      (List.range' k (n - k)).map (· * step.toNat) := by
  induction fuel generalizing k i with
  | zero =>
    rw [Nat.le_zero.mp hfuel]
    rfl
  | succ fuel ih =>
    have hlt : i < bound ↔ k < n := by
      rw [UInt32.lt_iff_toNat_lt, hi, hbound, Nat.mul_lt_mul_right hstep]
    rw [countFrom]
    by_cases hkn : k < n
    · have hnext : (k + 1) * step.toNat ≤ n * step.toNat := Nat.mul_le_mul_right _ hkn
      have hsmall := bound.toNat_lt
      rw [if_pos (hlt.mpr hkn), List.map_cons, ih (k := k + 1) ?_ hkn (by omega), hi]
      · obtain ⟨d, hd⟩ : ∃ d, n - k = d + 1 := ⟨n - k - 1, by omega⟩
        have hd' : n - (k + 1) = d := by omega
        rw [hd, hd', List.range'_succ, List.map_cons]
      · have hsum : k * step.toNat + step.toNat = (k + 1) * step.toNat := by
          rw [Nat.add_mul, Nat.one_mul]
        rw [UInt32.toNat_add, hi, hsum]
        exact Nat.mod_eq_of_lt (by omega)
    · rw [if_neg (mt hlt.mp hkn), Nat.sub_eq_zero_of_le (by omega)]
      rfl

theorem count_one (n : UInt32) : (count 1 n).map UInt32.toNat = List.range n.toNat := by
  have hn : n.toNat = n.toNat * (1 : UInt32).toNat := (Nat.mul_one _).symm
  have hcount := @countFrom_eq 1 n _ Nat.one_pos hn n.toNat 0 0 rfl (Nat.zero_le _) le_rfl
  have hid : (· * (1 : UInt32).toNat) = (id : ℕ → ℕ) := funext Nat.mul_one
  rwa [hid, List.map_id, ← List.range_eq_range'] at hcount

theorem count_two {n : UInt32} (h : n.toNat % 2 = 0) :
    (count 2 n).map UInt32.toNat = (List.range (n.toNat / 2)).map (· * 2) := by
  have hn : n.toNat = n.toNat / 2 * (2 : UInt32).toNat := by
    show n.toNat = n.toNat / 2 * 2
    omega
  have hcount := @countFrom_eq 2 n _ Nat.two_pos hn n.toNat 0 0 rfl (Nat.zero_le _)
    (Nat.div_le_self n.toNat 2)
  rwa [Nat.sub_zero, ← List.range_eq_range'] at hcount

theorem lt_of_mem_countFrom {step bound i : UInt32} {fuel : ℕ} {start : UInt32}
    (h : i ∈ countFrom step bound fuel start) : i < bound := by
  induction fuel generalizing start with
  | zero => cases h
  | succ fuel ih =>
    rw [countFrom] at h
    split_ifs at h with hlt
    · rcases List.mem_cons.mp h with rfl | h
      · exact hlt
      · exact ih h
    · cases h

theorem toNat_add_one {i bound : UInt32} (h : i < bound) : (i + 1).toNat = i.toNat + 1 := by
  have hlt := UInt32.lt_iff_toNat_lt.mp h
  have hbound := bound.toNat_lt
  rw [UInt32.toNat_add]
  exact Nat.mod_eq_of_lt (by
    show i.toNat + 1 < 2 ^ 32
    omega)

/-- The loops, with the sizes in unbounded arithmetic. -/
theorem lumaStores_eq (a : Args) :
    lumaStores a = (List.range a.height.toNat).flatMap fun row =>
      (List.range a.width.toNat).map fun column =>
        lumaStore (row * a.bgraStride.toNat + column * 4) (row * a.nv12Stride.toNat + column) := by
  rw [← count_one a.height, ← count_one a.width, List.flatMap_map]
  refine List.flatMap_congr fun row _ => ?_
  rw [List.map_map]
  refine List.map_congr_left fun column _ => ?_
  simp only [toNat_product, toNat_pixel, Function.comp_apply]

/-- The two stores of a block. -/
def block (a : Args) (yBytes row column : ℕ) : List (Store UInt8) :=
  let p0 := row * a.bgraStride.toNat + column * 4
  let p2 := row * a.bgraStride.toNat + a.bgraStride.toNat + column * 4
  let destination := yBytes + row / 2 * a.nv12Stride.toNat
  [chromaStore chromaU p0 p2 (destination + column),
    chromaStore chromaV p0 p2 (destination + (column + 1))]

theorem chromaStores_eq (a : Args) {yBytes : UInt64} (hwidth : a.width.toNat % 2 = 0)
    (hheight : a.height.toNat % 2 = 0) :
    chromaStores a yBytes = (List.range (a.height.toNat / 2)).flatMap fun row =>
      (List.range (a.width.toNat / 2)).flatMap fun column =>
        block a yBytes.toNat (row * 2) (column * 2) := by
  have hloop {n : UInt32} (hn : n.toNat % 2 = 0) (f : ℕ → List (Store UInt8)) :
      (List.range (n.toNat / 2)).flatMap (fun i => f (i * 2)) =
        (count 2 n).flatMap fun i => f i.toNat := by
    have hcount := congrArg (List.flatMap f) (count_two hn)
    rw [List.flatMap_map, List.flatMap_map] at hcount
    exact hcount.symm
  rw [hloop hheight fun row => (List.range (a.width.toNat / 2)).flatMap fun column =>
    block a yBytes.toNat row (column * 2)]
  refine List.flatMap_congr fun row _ => ?_
  rw [hloop hwidth fun column => block a yBytes.toNat row.toNat column]
  refine List.flatMap_congr fun column hcolumn => ?_
  have hnext := toNat_add_one (lt_of_mem_countFrom hcolumn)
  simp only [toNat_product, toNat_pixel, hnext, block, UInt32.toNat_div]
  rfl

/-! ### What is accepted -/

/-- What the checks establish. -/
structure Accepted (a : Args) (s : Sizes) : Prop where
  width_even : a.width.toNat % 2 = 0
  height_even : a.height.toNat % 2 = 0
  bgraStride : a.width.toNat * 4 ≤ a.bgraStride.toNat
  nv12Stride : a.width.toNat ≤ a.nv12Stride.toNat
  yBytes : s.yBytes.toNat = a.height.toNat * a.nv12Stride.toNat
  bgraBytes : a.height.toNat * a.bgraStride.toNat ≤ a.bgraBytes.toNat
  nv12Bytes : a.height.toNat * a.nv12Stride.toNat + a.height.toNat / 2 * a.nv12Stride.toNat ≤
    a.nv12Bytes.toNat

theorem even_of_and_one {x : UInt32} (h : ¬ x &&& 1 ≠ 0) : x.toNat % 2 = 0 := by
  have hand := congrArg UInt32.toNat (not_not.mp h)
  rw [UInt32.toNat_and] at hand
  rw [← Nat.and_one_is_mod]
  exact hand

theorem toNat_minStride {width : UInt32} (h : ¬ width > uint32Max / 4) :
    (width * 4).toNat = width.toNat * 4 := by
  have hle : width.toNat ≤ 1073741823 := UInt32.le_iff_toNat_le.mp (UInt32.not_lt.mp h)
  rw [UInt32.toNat_mul]
  exact Nat.mod_eq_of_lt (by
    show width.toNat * 4 < 2 ^ 32
    omega)

theorem sizes_eq {a : Args} {x y z : UInt64} (hx : requiredBytes a.bgraStride a.height = some x)
    (hy : requiredBytes a.nv12Stride a.height = some y)
    (hz : requiredBytes a.nv12Stride (a.height / 2) = some z) :
    sizes a =
      if y > sizeMax - z then none else some { requiredBgra := x, yBytes := y, uvBytes := z } := by
  rw [sizes, hx, hy, hz]

/-- The three products, and their sum where it is compared. -/
structure Sizes.Exact (a : Args) (s : Sizes) : Prop where
  requiredBgra : s.requiredBgra.toNat = a.bgraStride.toNat * a.height.toNat
  yBytes : s.yBytes.toNat = a.nv12Stride.toNat * a.height.toNat
  uvBytes : s.uvBytes.toNat = a.nv12Stride.toNat * (a.height.toNat / 2)
  total : (s.yBytes + s.uvBytes).toNat = s.yBytes.toNat + s.uvBytes.toNat

theorem exact_of_sizes {a : Args} {s : Sizes} (h : sizes a = some s) : s.Exact a := by
  have hbgra := toNat_product a.bgraStride a.height
  have hy := toNat_product a.nv12Stride a.height
  have huv := toNat_product a.nv12Stride (a.height / 2)
  rw [sizes_eq (requiredBytes_eq _ _) (requiredBytes_eq _ _) (requiredBytes_eq _ _)] at h
  generalize a.bgraStride.toUInt64 * a.height.toUInt64 = x at h hbgra
  generalize a.nv12Stride.toUInt64 * a.height.toUInt64 = y at h hy
  generalize a.nv12Stride.toUInt64 * (a.height / 2).toUInt64 = z at h huv
  rw [UInt32.toNat_div] at huv
  split_ifs at h with hsum
  obtain rfl := Option.some.inj h
  refine ⟨hbgra, hy, huv, ?_⟩
  have hle := UInt64.le_iff_toNat_le.mp (UInt64.not_lt.mp hsum)
  have hz : z ≤ sizeMax := UInt64.le_iff_toNat_le.mpr (Nat.le_pred_of_lt z.toNat_lt)
  rw [UInt64.toNat_sub_of_le _ _ hz, toNat_sizeMax] at hle
  have hlt := z.toNat_lt
  show (y + z).toNat = y.toNat + z.toNat
  rw [UInt64.toNat_add]
  exact Nat.mod_eq_of_lt (by omega)

theorem accepted_of_check {a : Args} {s : Sizes} (h : check a = .ok s) :
    Accepted a s ∧ sizes a = some s := by
  unfold check at h
  split_ifs at h with hnull hshape hstride
  cases hs : sizes a with
  | none =>
    rw [hs] at h
    cases h
  | some found =>
    rw [hs] at h
    dsimp only at h
    split_ifs at h with hbuffers
    obtain rfl := Except.ok.inj h
    obtain ⟨hbgra, hy, huv, htotal⟩ := exact_of_sizes hs
    rw [not_or, not_or, not_or] at hshape
    rw [not_or, not_or] at hstride
    rw [not_or] at hbuffers
    obtain ⟨-, -, hwidth, hheight⟩ := hshape
    obtain ⟨hmax, hbgraStride, hnv12Stride⟩ := hstride
    obtain ⟨hbgraBytes, hnv12Bytes⟩ := hbuffers
    have hbgraStride := UInt32.le_iff_toNat_le.mp (UInt32.not_lt.mp hbgraStride)
    have hbgraBytes := UInt64.le_iff_toNat_le.mp (UInt64.not_lt.mp hbgraBytes)
    have hnv12Bytes := UInt64.le_iff_toNat_le.mp (UInt64.not_lt.mp hnv12Bytes)
    rw [toNat_minStride hmax] at hbgraStride
    rw [hbgra, Nat.mul_comm] at hbgraBytes
    rw [htotal, hy, huv, Nat.mul_comm, Nat.mul_comm a.nv12Stride.toNat (_ / 2)] at hnv12Bytes
    exact ⟨⟨even_of_and_one hwidth, even_of_and_one hheight, hbgraStride,
      UInt32.le_iff_toNat_le.mp (UInt32.not_lt.mp hnv12Stride), hy.trans (Nat.mul_comm _ _),
      hbgraBytes, hnv12Bytes⟩, rfl⟩

/-! ### Where the stores go -/

/-- The visible bytes of both planes. -/
def visible (a : Args) : Set ℕ :=
  plane 0 a.nv12Stride.toNat a.height.toNat a.width.toNat ∪
    plane (a.height.toNat * a.nv12Stride.toNat) a.nv12Stride.toNat (a.height.toNat / 2)
      a.width.toNat

section Accepted
variable {a : Args} {s : Sizes}

theorem covers_lumaStores (h : Accepted a s) :
    Covers (lumaStores a) (plane 0 a.nv12Stride.toNat a.height.toNat a.width.toNat) := by
  rw [lumaStores_eq]
  refine covers_plane h.nv12Stride fun row _ => ?_
  rw [Nat.zero_add]
  exact covers_range fun _ => rfl

/-- A row of blocks. -/
theorem covers_blocks (h : Accepted a s) (base row : ℕ) :
    Covers ((List.range (a.width.toNat / 2)).flatMap fun column =>
        block a base (row * 2) (column * 2))
      (Set.Ico (base + row * a.nv12Stride.toNat)
        (base + row * a.nv12Stride.toNat + a.width.toNat)) := by
  have hwidth : a.width.toNat = a.width.toNat / 2 * 2 := by
    have heven := h.width_even
    omega
  have hcovers : Covers ((List.range (a.width.toNat / 2)).flatMap fun column =>
      block a base (row * 2) (column * 2))
      (plane (base + row * a.nv12Stride.toNat) 2 (a.width.toNat / 2) 2) := by
    refine covers_plane le_rfl fun column _ => covers_pair ?_ ?_
    · show base + row * 2 / 2 * a.nv12Stride.toNat + column * 2 = _
      rw [Nat.mul_div_cancel row two_pos]
    · show base + row * 2 / 2 * a.nv12Stride.toNat + (column * 2 + 1) = _
      rw [Nat.mul_div_cancel row two_pos, Nat.add_assoc _ _ 1]
  refine hcovers.congr fun i => ?_
  rw [mem_plane_full two_pos, ← hwidth]

theorem covers_chromaStores (h : Accepted a s) :
    Covers (chromaStores a s.yBytes)
      (plane (a.height.toNat * a.nv12Stride.toNat) a.nv12Stride.toNat (a.height.toNat / 2)
        a.width.toNat) := by
  rw [chromaStores_eq a h.width_even h.height_even, h.yBytes]
  exact covers_plane h.nv12Stride fun row _ => covers_blocks h _ row

theorem covers_stores (h : Accepted a s) :
    Covers (lumaStores a ++ chromaStores a s.yBytes) (visible a) :=
  covers_append (covers_lumaStores h) (covers_chromaStores h)
    (planes_disjoint h.nv12Stride h.nv12Stride (Nat.zero_add _).le)

theorem visible_below (h : Accepted a s) {i : ℕ} (hi : i ∈ visible a) : i < a.nv12Bytes.toNat := by
  have hbytes := h.nv12Bytes
  rcases hi with hi | hi
  · have hbelow := (plane_below h.nv12Stride hi).2
    omega
  · have hbelow := (plane_below h.nv12Stride hi).2
    omega

theorem reads_lumaStores (h : Accepted a s) {st : Store UInt8} {i : ℕ} (hst : st ∈ lumaStores a)
    (hi : i ∈ st.reads) : i < a.bgraBytes.toNat := by
  have hstride := h.bgraStride
  have hbytes := h.bgraBytes
  rw [lumaStores_eq] at hst
  obtain ⟨row, hrow, hst⟩ := List.mem_flatMap.mp hst
  obtain ⟨column, hcolumn, rfl⟩ := List.mem_map.mp hst
  have hend := row_end a.bgraStride.toNat (List.mem_range.mp hrow)
  have hlt := List.mem_range.mp hcolumn
  simp only [lumaStore, List.mem_cons, List.not_mem_nil, or_false] at hi
  omega

theorem reads_chromaStores (h : Accepted a s) {st : Store UInt8} {i : ℕ}
    (hst : st ∈ chromaStores a s.yBytes) (hi : i ∈ st.reads) : i < a.bgraBytes.toNat := by
  have hstride := h.bgraStride
  have hbytes := h.bgraBytes
  have hwidth := h.width_even
  rw [chromaStores_eq a h.width_even h.height_even] at hst
  obtain ⟨row, hrow, hst⟩ := List.mem_flatMap.mp hst
  obtain ⟨column, hcolumn, hst⟩ := List.mem_flatMap.mp hst
  have hsecond : row * 2 + 1 < a.height.toNat := by
    have hlt := List.mem_range.mp hrow
    omega
  have hend := row_end a.bgraStride.toNat hsecond
  rw [Nat.add_mul, Nat.one_mul] at hend
  have hlt := List.mem_range.mp hcolumn
  have hreads : i ∈ (chromaStore chromaU (row * 2 * a.bgraStride.toNat + column * 2 * 4)
      (row * 2 * a.bgraStride.toNat + a.bgraStride.toNat + column * 2 * 4) 0).reads := by
    rcases List.mem_cons.mp hst with rfl | hst
    · exact hi
    · obtain rfl := List.mem_singleton.mp hst
      exact hi
  simp only [chromaStore, List.mem_cons, List.not_mem_nil, or_false] at hreads
  omega

theorem reads_stores (h : Accepted a s) {st : Store UInt8} {i : ℕ}
    (hst : st ∈ lumaStores a ++ chromaStores a s.yBytes) (hi : i ∈ st.reads) :
    i < a.bgraBytes.toNat := by
  rcases List.mem_append.mp hst with hst | hst
  · exact reads_lumaStores h hst hi
  · exact reads_chromaStores h hst hi

/-- What stands behind the source buffer does not matter. -/
theorem exec_of_agree (h : check a = .ok s) {bgra bgra' nv12 : ℕ → UInt8}
    (hagree : ∀ i < a.bgraBytes.toNat, bgra i = bgra' i) :
    exec bgra (bgraToNv12 a).2 nv12 = exec bgra' (bgraToNv12 a).2 nv12 := by
  rw [bgraToNv12, h]
  exact exec_congr fun st hst i hi => hagree i (reads_stores (accepted_of_check h).1 hst hi)

end Accepted

/-! ### Every call -/

/-- A counter that reaches its bound does not pass it. -/
theorem toNat_next {step bound i : UInt32} (hstep : 0 < step.toNat)
    (hbound : step.toNat ∣ bound.toNat) (hi : i ∈ count step bound) :
    (i + step).toNat = i.toNat + step.toNat := by
  obtain ⟨n, hn⟩ := hbound
  rw [Nat.mul_comm] at hn
  have hn' : n ≤ bound.toNat := by
    rw [hn]
    exact Nat.le_mul_of_pos_right n hstep
  have hvalues := @countFrom_eq step bound n hstep hn bound.toNat 0 0 (Nat.zero_mul _).symm
    (Nat.zero_le _) hn'
  have hmem : i.toNat ∈ (count step bound).map UInt32.toNat := List.mem_map_of_mem hi
  rw [count, hvalues, Nat.sub_zero, ← List.range_eq_range'] at hmem
  obtain ⟨k, hk, hik⟩ := List.mem_map.mp hmem
  have hend := row_end step.toNat (List.mem_range.mp hk)
  have hsmall := bound.toNat_lt
  rw [UInt32.toNat_add]
  exact Nat.mod_eq_of_lt (by omega)

/-- The sizes are those of unbounded arithmetic, each where the code comes to it. -/
structure NoWrap (a : Args) : Prop where
  minStride : ¬ a.width > uint32Max / 4 → (a.width * 4).toNat = a.width.toNat * 4
  requiredBytes : ∀ stride rows size, requiredBytes stride rows = some size →
    size.toNat = stride.toNat * rows.toNat
  sizes : ∀ s, sizes a = some s → s.Exact a
  offset : ∀ row stride : UInt32, (row.toUInt64 * stride.toUInt64).toNat = row.toNat * stride.toNat
  pixel : ∀ column : UInt32, (column.toUInt64 * 4).toNat = column.toNat * 4
  counters : ∀ s, check a = .ok s → ∀ bound, bound = a.width ∨ bound = a.height →
    (∀ i ∈ count 1 bound, (i + 1).toNat = i.toNat + 1) ∧
      ∀ i ∈ count 2 bound, (i + 1).toNat = i.toNat + 1 ∧ (i + 2).toNat = i.toNat + 2

theorem noWrap (a : Args) : NoWrap a where
  minStride := toNat_minStride
  requiredBytes stride rows size h := by
    rw [requiredBytes_eq] at h
    rw [← Option.some.inj h, toNat_product]
  sizes _ := exact_of_sizes
  offset := toNat_product
  pixel := toNat_pixel
  counters s h bound hbound := by
    obtain ⟨haccepted, -⟩ := accepted_of_check h
    have heven : 2 ∣ bound.toNat := by
      rcases hbound with rfl | rfl
      · exact Nat.dvd_of_mod_eq_zero haccepted.width_even
      · exact Nat.dvd_of_mod_eq_zero haccepted.height_even
    refine ⟨fun i hi => toNat_add_one (lt_of_mem_countFrom hi), fun i hi =>
      ⟨toNat_add_one (lt_of_mem_countFrom hi), ?_⟩⟩
    exact @toNat_next 2 bound i two_pos heven hi

theorem ne_sOk_of_check {a : Args} {r : Result} (h : check a = .error r) : r ≠ .sOk := by
  unfold check at h
  split_ifs at h with hnull hshape hstride
  · rw [← Except.error.inj h]
    decide
  · rw [← Except.error.inj h]
    decide
  · rw [← Except.error.inj h]
    decide
  · cases hs : sizes a with
    | none =>
      rw [hs] at h
      rw [← Except.error.inj h]
      decide
    | some s =>
      rw [hs] at h
      dsimp only at h
      split_ifs at h
      rw [← Except.error.inj h]
      decide

/-- **A call is turned down before its first store, or it stays inside both buffers and writes every
visible byte once, and no other**; its sizes do not wrap. -/
theorem footprint (a : Args) :
    ((bgraToNv12 a).1 ≠ .sOk ∧ (bgraToNv12 a).2 = [] ∨
      (bgraToNv12 a).1 = .sOk ∧
        (∀ st ∈ (bgraToNv12 a).2, ∀ i ∈ st.reads, i < a.bgraBytes.toNat) ∧
        (∀ st ∈ (bgraToNv12 a).2, st.address < a.nv12Bytes.toNat) ∧
        (∀ i ∈ visible a, (addresses (bgraToNv12 a).2).count i = 1) ∧
        ∀ i ∉ visible a, i ∉ addresses (bgraToNv12 a).2 ∧
          ∀ bgra nv12, exec bgra (bgraToNv12 a).2 nv12 i = nv12 i) ∧
      NoWrap a := by
  refine ⟨?_, noWrap a⟩
  cases hcheck : check a with
  | error r =>
    rw [bgraToNv12, hcheck]
    exact .inl ⟨ne_sOk_of_check hcheck, rfl⟩
  | ok s =>
    obtain ⟨h, -⟩ := accepted_of_check hcheck
    have hcovers := covers_stores h
    rw [bgraToNv12, hcheck]
    refine .inr ⟨rfl, fun st hst i hi => reads_stores h hst hi,
      fun st hst => visible_below h (hcovers.address_mem hst),
      fun i => hcovers.count_eq_one, fun i hi => ⟨hcovers.not_mem hi, fun bgra nv12 => ?_⟩⟩
    exact hcovers.exec_of_not_mem hi

end RemoteCam.Media.PixelConvert
