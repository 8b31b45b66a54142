import RemoteCam.Media.PixelConvert

/-! # Studio range

The bytes that `bgraToNv12` leaves in the planes. Luma and V stay in studio range; the coefficients
of U sum to 113 on either side of zero, one more than its range has room for, and a block of pure
blue or of pure yellow leaves it. `legal_iff`: no other block does. -/

namespace RemoteCam.Media.StudioRange

open RemoteCam.Lib.Stores RemoteCam.Media.PixelConvert

variable {a : Args} {s : Sizes} {bgra nv12 : ℕ → UInt8}

/-! ### What is legal -/

/-- Component `k` of a pixel: blue, green, red. -/
def component (a : Args) (bgra : ℕ → UInt8) (row column k : ℕ) : UInt8 :=
  bgra (row * a.bgraStride.toNat + column * 4 + k)

/-- A component summed over the block of chroma row `row` and column `column`. -/
def blockSum (a : Args) (bgra : ℕ → UInt8) (row column k : ℕ) : ℕ :=
  (component a bgra (row * 2) (column * 2) k).toNat +
    (component a bgra (row * 2) (column * 2 + 1) k).toNat +
    (component a bgra (row * 2 + 1) (column * 2) k).toNat +
    (component a bgra (row * 2 + 1) (column * 2 + 1) k).toNat

/-- The rounded average of the block. -/
def blockAverage (a : Args) (bgra : ℕ → UInt8) (row column k : ℕ) : ℕ :=
  (blockSum a bgra row column k + 2) / 4

def lumaAt (a : Args) (nv12 : ℕ → UInt8) (row column : ℕ) : UInt8 :=
  nv12 (row * a.nv12Stride.toNat + column)

def chromaAt (a : Args) (nv12 : ℕ → UInt8) (row column : ℕ) : UInt8 :=
  nv12 (a.height.toNat * a.nv12Stride.toNat + row * a.nv12Stride.toNat + column)

/-- `nv12` is `bgra` in legal studio range. -/
structure Legal (a : Args) (bgra nv12 : ℕ → UInt8) : Prop where
  luma : ∀ row < a.height.toNat, ∀ column < a.width.toNat,
    16 ≤ (lumaAt a nv12 row column).toNat ∧ (lumaAt a nv12 row column).toNat ≤ 235
  chroma : ∀ row < a.height.toNat / 2, ∀ column < a.width.toNat,
    16 ≤ (chromaAt a nv12 row column).toNat ∧ (chromaAt a nv12 row column).toNat ≤ 240
  grey : ∀ row < a.height.toNat / 2, ∀ column < a.width.toNat / 2,
    blockAverage a bgra row column 0 = blockAverage a bgra row column 1 →
    blockAverage a bgra row column 1 = blockAverage a bgra row column 2 →
    chromaAt a nv12 row (column * 2) = 128 ∧ chromaAt a nv12 row (column * 2 + 1) = 128
  monotone : ∀ row < a.height.toNat, ∀ column < a.width.toNat,
    ∀ row' < a.height.toNat, ∀ column' < a.width.toNat,
    (∀ k < 3, component a bgra row column k ≤ component a bgra row' column' k) →
    lumaAt a nv12 row column ≤ lumaAt a nv12 row' column'

/-- The block is blue, or yellow, as far as the average can tell. -/
def Saturated (a : Args) (bgra : ℕ → UInt8) (row column : ℕ) : Prop :=
  (1018 ≤ blockSum a bgra row column 0 ∧ blockSum a bgra row column 1 ≤ 1 ∧
      blockSum a bgra row column 2 ≤ 1) ∨
    (blockSum a bgra row column 0 ≤ 1 ∧ 1018 ≤ blockSum a bgra row column 1 ∧
      1018 ≤ blockSum a bgra row column 2)

instance (a : Args) (bgra : ℕ → UInt8) (row column : ℕ) :
    Decidable (Saturated a bgra row column) := inferInstanceAs (Decidable (_ ∨ _))

/-! ### The arithmetic -/

theorem toNat_clampByte {value : ℤ} (h : 0 ≤ value) (h' : value ≤ 255) :
    ((clampByte value).toNat : ℤ) = value := by
  have hclamp : max 0 (min value 255) = value := by omega
  have hsmall : value.toNat < 2 ^ 8 := by omega
  rw [clampByte, hclamp, UInt8.toNat_ofNat_of_lt' hsmall]
  exact Int.toNat_of_nonneg h

/-- White is 235 and black is 16. -/
theorem toNat_luma (blue green red : UInt8) :
    (luma blue green red).toNat =
      16 + (16 * blue.toNat + 157 * green.toNat + 47 * red.toNat + 128) / 256 := by
  have hblue := blue.toNat_lt
  have hgreen := green.toNat_lt
  have hred := red.toNat_lt
  have hshift : Int.shiftRight (16 * blue.toNat + 157 * green.toNat + 47 * red.toNat + 128) 8 =
      (16 * blue.toNat + 157 * green.toNat + 47 * red.toNat + 128) / 256 :=
    Int.shiftRight_eq_div_pow _ 8
  have hvalue := @toNat_clampByte
    (16 + (16 * blue.toNat + 157 * green.toNat + 47 * red.toNat + 128) / 256) (by omega) (by omega)
  rw [luma, hshift]
  omega

theorem divideRounded256_bounds {value : ℤ} (h : -28815 ≤ value) (h' : value ≤ 28815) :
    -113 ≤ divideRounded256 value ∧ divideRounded256 value ≤ 113 ∧
      (divideRounded256 value = 113 ↔ 28800 ≤ value) ∧
      (divideRounded256 value = -113 ↔ value ≤ -28800) := by
  unfold divideRounded256
  split_ifs <;> omega

section Chroma
variable {blue green red : ℕ} (hblue : blue ≤ 255) (hgreen : green ≤ 255) (hred : red ≤ 255)
include hblue hgreen hred

theorem chromaU_legal_iff :
    (16 ≤ (chromaU blue green red).toNat ∧ (chromaU blue green red).toNat ≤ 240) ↔
      ¬ ((blue = 255 ∧ green = 0 ∧ red = 0) ∨ (blue = 0 ∧ green = 255 ∧ red = 255)) := by
  have hbounds := @divideRounded256_bounds (113 * blue - 87 * green - 26 * red) (by omega)
    (by omega)
  obtain ⟨hlow, hhigh, hmax, hmin⟩ := hbounds
  unfold chromaU
  have hvalue := @toNat_clampByte
    (128 + divideRounded256 (113 * blue - 87 * green - 26 * red)) (by omega) (by omega)
  omega

theorem chromaV_legal :
    16 ≤ (chromaV blue green red).toNat ∧ (chromaV blue green red).toNat ≤ 240 := by
  have hbounds := @divideRounded256_bounds (-10 * blue - 102 * green + 112 * red) (by omega)
    (by omega)
  obtain ⟨hlow, hhigh, hmax, hmin⟩ := hbounds
  unfold chromaV
  have hvalue := @toNat_clampByte
    (128 + divideRounded256 (-10 * blue - 102 * green + 112 * red)) (by omega) (by omega)
  omega

end Chroma

theorem chroma_grey (level : ℤ) :
    chromaU level level level = 128 ∧ chromaV level level level = 128 := by
  have hu : 113 * level - 87 * level - 26 * level = 0 := by ring
  have hv : -10 * level - 102 * level + 112 * level = 0 := by ring
  rw [chromaU, chromaV, hu, hv]
  exact ⟨rfl, rfl⟩

theorem luma_mono {blue green red blue' green' red' : UInt8} (hblue : blue ≤ blue')
    (hgreen : green ≤ green') (hred : red ≤ red') :
    luma blue green red ≤ luma blue' green' red' := by
  have hblue := UInt8.le_iff_toNat_le.mp hblue
  have hgreen := UInt8.le_iff_toNat_le.mp hgreen
  have hred := UInt8.le_iff_toNat_le.mp hred
  rw [UInt8.le_iff_toNat_le, toNat_luma, toNat_luma]
  omega

/-! ### The bytes of the planes -/

section Planes
variable {row column : ℕ}

theorem exec_stores {st : Store UInt8} (h : check a = .ok s)
    (hst : st ∈ lumaStores a ++ chromaStores a s.yBytes) {i : ℕ} (hi : st.address = i) :
    exec bgra (bgraToNv12 a).2 nv12 i = st.value bgra := by
  rw [bgraToNv12, h]
  exact (covers_stores (accepted_of_check h).1).exec_of_mem hst hi

theorem lumaAt_exec (h : check a = .ok s) (hrow : row < a.height.toNat)
    (hcolumn : column < a.width.toNat) :
    lumaAt a (exec bgra (bgraToNv12 a).2 nv12) row column =
      luma (component a bgra row column 0) (component a bgra row column 1)
        (component a bgra row column 2) := by
  refine @exec_stores a s bgra nv12 (lumaStore (row * a.bgraStride.toNat + column * 4) _) h
    (List.mem_append_left _ ?_) _ rfl
  rw [lumaStores_eq]
  exact List.mem_flatMap.mpr ⟨row, List.mem_range.mpr hrow,
    List.mem_map_of_mem (List.mem_range.mpr hcolumn)⟩

/-- The average is that of the block. -/
theorem average_eq (a : Args) (bgra : ℕ → UInt8) (row column k : ℕ) :
    let p0 := row * 2 * a.bgraStride.toNat + column * 2 * 4
    let p2 := row * 2 * a.bgraStride.toNat + a.bgraStride.toNat + column * 2 * 4
    average bgra (p0 + k) (p0 + 4 + k) (p2 + k) (p2 + 4 + k) =
      blockAverage a bgra row column k := by
  have hnext : (column * 2 + 1) * 4 = column * 2 * 4 + 4 := by omega
  have hsecond : (row * 2 + 1) * a.bgraStride.toNat =
      row * 2 * a.bgraStride.toNat + a.bgraStride.toNat := by
    rw [Nat.add_mul, Nat.one_mul]
  simp only [average, blockAverage, blockSum, component, hnext, hsecond, Nat.add_assoc]
  push_cast
  ring_nf

/-- The stores of a block are among those of a call. -/
theorem block_subset (h : check a = .ok s) (hrow : row < a.height.toNat / 2)
    (hcolumn : column < a.width.toNat / 2) {st : Store UInt8}
    (hst : st ∈ block a s.yBytes.toNat (row * 2) (column * 2)) :
    st ∈ lumaStores a ++ chromaStores a s.yBytes := by
  obtain ⟨haccepted, -⟩ := accepted_of_check h
  refine List.mem_append_right _ ?_
  rw [chromaStores_eq a haccepted.width_even haccepted.height_even]
  exact List.mem_flatMap.mpr ⟨row, List.mem_range.mpr hrow,
    List.mem_flatMap.mpr ⟨column, List.mem_range.mpr hcolumn, hst⟩⟩

theorem chromaAt_exec (h : check a = .ok s) (hrow : row < a.height.toNat / 2)
    (hcolumn : column < a.width.toNat / 2) :
    chromaAt a (exec bgra (bgraToNv12 a).2 nv12) row (column * 2) =
        chromaU (blockAverage a bgra row column 0) (blockAverage a bgra row column 1)
          (blockAverage a bgra row column 2) ∧
      chromaAt a (exec bgra (bgraToNv12 a).2 nv12) row (column * 2 + 1) =
        chromaV (blockAverage a bgra row column 0) (blockAverage a bgra row column 1)
          (blockAverage a bgra row column 2) := by
  obtain ⟨haccepted, -⟩ := accepted_of_check h
  have hdestination : s.yBytes.toNat + row * 2 / 2 * a.nv12Stride.toNat =
      a.height.toNat * a.nv12Stride.toNat + row * a.nv12Stride.toNat := by
    rw [haccepted.yBytes, Nat.mul_div_cancel row two_pos]
  have hblue := average_eq a bgra row column 0
  have hgreen := average_eq a bgra row column 1
  have hred := average_eq a bgra row column 2
  constructor
  · refine (exec_stores h (block_subset h hrow hcolumn (List.mem_cons_self ..)) ?_).trans ?_
    · exact congrArg (· + column * 2) hdestination
    · rw [← hblue, ← hgreen, ← hred]
      rfl
  · refine (exec_stores h (block_subset h hrow hcolumn
      (List.mem_cons_of_mem _ (List.mem_singleton_self _))) ?_).trans ?_
    · exact congrArg (· + (column * 2 + 1)) hdestination
    · rw [← hblue, ← hgreen, ← hred]
      rfl

end Planes

/-! ### Every image -/

theorem blockSum_le (a : Args) (bgra : ℕ → UInt8) (row column k : ℕ) :
    blockSum a bgra row column k ≤ 1020 := by
  have hle (x : UInt8) : x.toNat ≤ 255 := Nat.le_pred_of_lt x.toNat_lt
  have h0 := hle (component a bgra (row * 2) (column * 2) k)
  have h1 := hle (component a bgra (row * 2) (column * 2 + 1) k)
  have h2 := hle (component a bgra (row * 2 + 1) (column * 2) k)
  have h3 := hle (component a bgra (row * 2 + 1) (column * 2 + 1) k)
  unfold blockSum
  omega

theorem saturated_iff (a : Args) (bgra : ℕ → UInt8) (row column : ℕ) :
    Saturated a bgra row column ↔
      (blockAverage a bgra row column 0 = 255 ∧ blockAverage a bgra row column 1 = 0 ∧
          blockAverage a bgra row column 2 = 0) ∨
        (blockAverage a bgra row column 0 = 0 ∧ blockAverage a bgra row column 1 = 255 ∧
          blockAverage a bgra row column 2 = 255) := by
  have h0 := blockSum_le a bgra row column 0
  have h1 := blockSum_le a bgra row column 1
  have h2 := blockSum_le a bgra row column 2
  unfold Saturated blockAverage
  omega

/-- **An accepted image is legal studio range afterwards if and only if no block of it is blue or
yellow.** -/
theorem legal_iff (a : Args) (s : Sizes) (h : check a = .ok s) (bgra nv12 : ℕ → UInt8) :
    Legal a bgra (exec bgra (bgraToNv12 a).2 nv12) ↔
      ∀ row < a.height.toNat / 2, ∀ column < a.width.toNat / 2,
        ¬ Saturated a bgra row column := by
  have haverage (row column k : ℕ) : blockAverage a bgra row column k ≤ 255 := by
    have hsum := blockSum_le a bgra row column k
    unfold blockAverage
    omega
  have hu (row column : ℕ) := chromaU_legal_iff (haverage row column 0) (haverage row column 1)
    (haverage row column 2)
  constructor
  · intro hlegal row hrow column hcolumn
    have hchroma := hlegal.chroma row hrow (column * 2) (by omega)
    rw [(chromaAt_exec h hrow hcolumn).1, hu, ← saturated_iff] at hchroma
    exact hchroma
  · intro hblocks
    refine ⟨fun row hrow column hcolumn => ?_, fun row hrow column hcolumn => ?_,
      fun row hrow column hcolumn hbg hgr => ?_,
      fun row hrow column hcolumn row' hrow' column' hcolumn' hle => ?_⟩
    · rw [lumaAt_exec h hrow hcolumn, toNat_luma]
      have hblue := (component a bgra row column 0).toNat_lt
      have hgreen := (component a bgra row column 1).toNat_lt
      have hred := (component a bgra row column 2).toNat_lt
      omega
    · -- the even columns are U, the odd ones V
      have hhalf : column / 2 < a.width.toNat / 2 := by
        have heven := (accepted_of_check h).1.width_even
        omega
      rcases Nat.mod_two_eq_zero_or_one column with hmod | hmod
      · have hcol : column = column / 2 * 2 := by omega
        rw [hcol, (chromaAt_exec h hrow hhalf).1, hu, ← saturated_iff]
        exact hblocks row hrow (column / 2) hhalf
      · have hcol : column = column / 2 * 2 + 1 := by omega
        rw [hcol, (chromaAt_exec h hrow hhalf).2]
        exact chromaV_legal (haverage _ _ _) (haverage _ _ _) (haverage _ _ _)
    · rw [(chromaAt_exec h hrow hcolumn).1, (chromaAt_exec h hrow hcolumn).2, hbg, hgr]
      exact chroma_grey _
    · rw [lumaAt_exec h hrow hcolumn, lumaAt_exec h hrow' hcolumn']
      exact luma_mono (hle 0 (by decide)) (hle 1 (by decide)) (hle 2 (by decide))

/-- Four pixels, without padding. -/
def fourPixels : Args where
  bgra := true
  bgraBytes := 16
  bgraStride := 8
  width := 2
  height := 2
  nv12 := true
  nv12Bytes := 6
  nv12Stride := 2

theorem legal_iff_grey :
    Legal fourPixels (fun _ => 77) (exec (fun _ => 77) (bgraToNv12 fourPixels).2 fun _ => 0) :=
  (legal_iff fourPixels ⟨16, 4, 2⟩ (by decide) (fun _ => 77) fun _ => 0).mpr (by decide)

/-- Pure blue. -/
def blue (i : ℕ) : UInt8 := if i % 4 = 0 ∨ i % 4 = 3 then 255 else 0

/-- The U byte of pure blue is 241. -/
theorem not_legal_blue :
    check fourPixels = .ok ⟨16, 4, 2⟩ ∧
      exec blue (bgraToNv12 fourPixels).2 (fun _ => 0) 4 = 241 ∧
      ¬ Legal fourPixels blue (exec blue (bgraToNv12 fourPixels).2 fun _ => 0) := by
  have hbyte : exec blue (bgraToNv12 fourPixels).2 (fun _ => 0) 4 = 241 := by decide
  refine ⟨by decide, hbyte, fun hlegal => ?_⟩
  have hchroma := (hlegal.chroma 0 (by decide) 0 (by decide)).2
  have hat : chromaAt fourPixels (exec blue (bgraToNv12 fourPixels).2 fun _ => 0) 0 0 = 241 := hbyte
  rw [hat] at hchroma
  exact absurd hchroma (by decide)

end RemoteCam.Media.StudioRange
